import ClassMetadata.Deferred.Shape

/-!
# Which values make an array

* `checkedArray_eq_ok_iff`: **values make an array exactly if one shape, which is not that of an array, is
  the shape of them all**; the check goes over the elements one by one and compares the text of each with
  that of the first;
* `Shape.text_injective`: no two shapes have one text, whatever the names in them.
-/

namespace ClassMetadata.Deferred

/-! ### texts of shapes -/

/-- The first two letters of the text of a shape. -/
def Shape.initials : Shape → List Char
  | literal (.base .byte) => ['b', 'y']
  | literal (.base .char) => ['c', 'h']
  | literal (.base .double) => ['d', 'o']
  | literal (.base .float) => ['f', 'l']
  | literal (.base .int) => ['i', 'n']
  | literal (.base .long) => ['l', 'o']
  | literal (.base .short) => ['s', 'h']
  | literal (.base .boolean) => ['b', 'o']
  | literal .string => ['s', 't']
  | classLiteral => ['c', 'l']
  | enum _ => ['e', 'n']
  | nested _ => ['a', 'n']
  | array => ['a', 'r']

theorem Shape.take_text (s : Shape) : s.text.toList.take 2 = s.initials := by
  rcases s with (⟨_ | _ | _ | _ | _ | _ | _ | _⟩ | _) | _ | name | name | _
  case enum =>
    show ("enum " ++ name).toList.take 2 = _
    rw [String.toList_append]
    rfl
  case nested =>
    show ("annotation " ++ name).toList.take 2 = _
    rw [String.toList_append]
    rfl
  all_goals rfl

/-- The initials tell the kinds apart, and what is behind them is the name. -/
theorem Shape.text_injective {s t : Shape} (h : s.text = t.text) : s = t := by
  have hinitials : s.initials = t.initials := by rw [← take_text, ← take_text, h]
  rcases s with (⟨_ | _ | _ | _ | _ | _ | _ | _⟩ | _) | _ | name | name | _ <;>
  rcases t with (⟨_ | _ | _ | _ | _ | _ | _ | _⟩ | _) | _ | name' | name' | _ <;>
  simp_all [Shape.text, Shape.initials]

theorem Shape.text_inj {s t : Shape} : s.text = t.text ↔ s = t := ⟨text_injective, congrArg text⟩

/-! ### the check -/

theorem arrayError?_some_eq_none_iff {shape : Shape} {index : Nat} {vs : List Value} :
    arrayError? (some shape) index vs = none ↔ ∀ v ∈ vs, v.shape ≠ .array ∧ v.shape = shape := by
  induction vs generalizing index with
  | nil => simp [arrayError?]
  | cons v vs ih =>
    rw [arrayError?, List.forall_mem_cons]
    by_cases harray : v.shape = .array
    · simp [harray]
    · by_cases hsame : shape = v.shape
      · have hv : v.shape ≠ .array ∧ v.shape = shape := ⟨harray, hsame.symm⟩
        rw [if_neg harray, and_iff_right hv]
        show (if shape.text = v.shape.text then _ else _) = none ↔ _
        rw [if_pos (congrArg Shape.text hsame)]
        exact ih
      · have hsame' : ¬ v.shape = shape := fun h => hsame h.symm
        simp [harray, Shape.text_inj, hsame, hsame']

theorem arrayError?_none_eq_none_iff {index : Nat} {vs : List Value} :
    arrayError? none index vs = none ↔ ∃ shape, shape ≠ .array ∧ ∀ v ∈ vs, v.shape = shape := by
  cases vs with
  | nil => exact ⟨fun _ => ⟨.classLiteral, by decide, by simp⟩, fun _ => rfl⟩
  | cons v vs =>
    rw [arrayError?]
    by_cases harray : v.shape = .array
    · rw [if_pos harray]
      constructor
      · intro h
        cases h
      · rintro ⟨shape, hne, hall⟩
        exact absurd ((hall v List.mem_cons_self).symm.trans harray) hne
    · rw [if_neg harray]
      show arrayError? (some v.shape) (index + 1) vs = none ↔ _
      rw [arrayError?_some_eq_none_iff]
      constructor
      · intro hall
        refine ⟨v.shape, harray, List.forall_mem_cons.mpr ⟨rfl, fun w hw => (hall w hw).2⟩⟩
      · rintro ⟨shape, hne, hall⟩ w hw
        have hv : v.shape = shape := hall v List.mem_cons_self
        have hw : w.shape = shape := hall w (List.mem_cons_of_mem v hw)
        exact ⟨hw ▸ hne, hw.trans hv.symm⟩

theorem checkedArray_eq_ok_iff {vs : List Value} {array : Value} :
    Value.checkedArray vs = .ok array ↔
      array = .array vs ∧ ∃ shape, shape ≠ .array ∧ ∀ v ∈ vs, v.shape = shape := by
  rw [← arrayError?_none_eq_none_iff, Value.checkedArray]
  cases h : arrayError? none 0 vs with
  | none => simp [eq_comm]
  | some e => simp

end ClassMetadata.Deferred
