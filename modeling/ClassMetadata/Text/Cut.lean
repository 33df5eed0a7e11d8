/-!
# Cutting a text at the last separator
-/

namespace ClassMetadata

/-- What stands in front of the last `separator` and what stands behind it, if there is one. -/
def cutAtLast (separator : Char) : List Char → Option (List Char × List Char)
  | [] => none
  | c :: cs =>
    match cutAtLast separator cs with
    | some (front, back) => some (c :: front, back)
    | none => if c = separator then some ([], cs) else none

theorem eq_of_cutAtLast {separator : Char} {cs front back : List Char}
    (h : cutAtLast separator cs = some (front, back)) : cs = front ++ separator :: back := by
  induction cs generalizing front with
  | nil => simp [cutAtLast] at h
  | cons c cs ih =>
    unfold cutAtLast at h
    split at h
    · rename_i f b hcs
      simp only [Option.some.injEq, Prod.mk.injEq] at h
      obtain ⟨rfl, rfl⟩ := h
      simp [ih hcs]
    · split at h
      · simp_all
      · simp at h

theorem cutAtLast_eq_none_iff {separator : Char} {cs : List Char} :
    cutAtLast separator cs = none ↔ separator ∉ cs := by
  induction cs with
  | nil => simp [cutAtLast]
  | cons c cs ih =>
    unfold cutAtLast
    split
    · rename_i f b hcs
      have : separator ∈ cs := by rw [eq_of_cutAtLast hcs]; simp
      simp [this]
    · rename_i hcs
      split <;> simp_all [eq_comm]

theorem not_mem_of_cutAtLast {separator : Char} {cs front back : List Char}
    (h : cutAtLast separator cs = some (front, back)) : separator ∉ back := by
  induction cs generalizing front with
  | nil => simp [cutAtLast] at h
  | cons c cs ih =>
    unfold cutAtLast at h
    split at h
    · rename_i f b hcs
      simp only [Option.some.injEq, Prod.mk.injEq] at h
      obtain ⟨rfl, rfl⟩ := h
      exact ih hcs
    · rename_i hcs
      split at h
      · simp only [Option.some.injEq, Prod.mk.injEq] at h
        exact h.2 ▸ cutAtLast_eq_none_iff.1 hcs
      · simp at h

theorem cutAtLast_append {separator : Char} {back : List Char} (h : separator ∉ back) (front : List Char) :
    cutAtLast separator (front ++ separator :: back) = some (front, back) := by
  induction front with
  | nil => simp [cutAtLast, cutAtLast_eq_none_iff.2 h]
  | cons c front ih => simp [cutAtLast, ih]

/-- A cut is at the separator behind which there is no other. -/
theorem cutAtLast_eq_some_iff {separator : Char} {cs front back : List Char} :
    cutAtLast separator cs = some (front, back) ↔ cs = front ++ separator :: back ∧ separator ∉ back := by
  constructor
  · intro h
    exact ⟨eq_of_cutAtLast h, not_mem_of_cutAtLast h⟩
  · rintro ⟨rfl, h⟩
    exact cutAtLast_append h front

end ClassMetadata
