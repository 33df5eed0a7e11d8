import ClassMetadata.ClassFile.ConstantPool
import Mathlib.Tactic.ByContra

/-!
# Indices of a constant pool

A pool only grows at its end.  What one push does is said once, for the index (`index_of_push`), for the
number of slots (`size_push`) and for what is found (`get?_push`); what holds behind any number of pushes
follows by induction on them.

* `get?_pushAll_of_lt`: a slot that is there never changes again, whether it is filled or empty;
* `get?_pushAll_eq_some_iff`: **a constant is found where it was, or where a push since then has put it**;
* `size_pushAll_le`: a pool that was made from constants has no more than `maxSlots` slots;
* `constants_keep_their_indices`: all of this for one push on a pool in use, with pushes behind it.
-/

namespace ClassMetadata.ClassFile

/-- The slots of a constant. -/
def Constant.slots (c : Constant) : Array (Option Constant) :=
  if c.isWide then #[some c, none] else #[some c]

/-- The constant is found in the first of its slots. -/
theorem Constant.join_slots (c : Constant) (k : Nat) :
    (c.slots[k]?).join = if k = 0 then some c else none := by
  unfold Constant.slots
  split <;> rcases k with _ | _ | k <;> simp

namespace ConstantPool

variable {p : ConstantPool} {c : Constant} {n i : Nat}

/-! ### one push -/

theorem push_of_fits (h : p.size + c.width ≤ maxSlots) :
    p.push c = (⟨p.slots ++ c.slots⟩, some p.size) := by
  have hfits : ¬ maxSlots < p.size + c.width := Nat.not_lt.mpr h
  rw [push, if_neg hfits, index?_size hfits]
  cases hwide : c.isWide with
  | false => simp [Constant.slots, hwide]
  | true =>
    have hslots : (p.slots.push (some c)).push none = p.slots ++ #[some c, none] := by
      rw [Array.push_eq_append, Array.push_eq_append, Array.append_assoc]
      rfl
    simp only [Constant.slots, hwide, if_true, hslots]

theorem push_of_full (h : maxSlots < p.size + c.width) : p.push c = (p, none) := by
  rw [push, if_pos h]

/-- **The index of a constant** is the number of slots in front of it, if there is room. -/
theorem index_of_push : (p.push c).2 = some i ↔ i = p.size ∧ p.size + c.width ≤ maxSlots := by
  rcases Nat.lt_or_ge maxSlots (p.size + c.width) with hfull | hfits
  · rw [push_of_full hfull]
    simp [Nat.not_le.mpr hfull]
  · rw [push_of_fits hfits]
    simp [hfits, eq_comm]

theorem push_eq_of_none (h : (p.push c).2 = none) : (p.push c).1 = p := by
  rcases Nat.lt_or_ge maxSlots (p.size + c.width) with hfull | hfits
  · rw [push_of_full hfull]
  · rw [push_of_fits hfits] at h
    cases h

theorem size_of_index (h : (p.push c).2 = some i) : (p.push c).1.size = p.size + c.width := by
  have hfits := (index_of_push.mp h).2
  rw [size_push, if_neg (Nat.not_lt.mpr hfits)]

theorem size_le_size_push (p : ConstantPool) (c : Constant) : p.size ≤ (p.push c).1.size := by
  rw [size_push]
  split <;> omega

theorem get?_of_size_le (h : p.size ≤ n) : p.get? n = none := by
  rw [get?, Array.getElem?_eq_none h]
  rfl

theorem lt_size_of_get? (h : p.get? n = some c) : n < p.size := by
  by_contra hn
  rw [get?_of_size_le (Nat.not_lt.mp hn)] at h
  cases h

/-- **What is found behind a push**: the constant at its index, and elsewhere what was found before. -/
theorem get?_push (p : ConstantPool) (c : Constant) (n : Nat) :
    (p.push c).1.get? n = if (p.push c).2 = some n then some c else p.get? n := by
  rcases Nat.lt_or_ge maxSlots (p.size + c.width) with hfull | hfits
  · rw [push_of_full hfull]
    rfl
  · rw [push_of_fits hfits]
    show ((p.slots ++ c.slots)[n]?).join = if some p.size = some n then some c else p.get? n
    simp only [Array.getElem?_append, Option.some_inj]
    show (if n < p.size then p.slots[n]? else c.slots[n - p.size]?).join = _
    rcases Nat.lt_or_ge n p.size with hold | hnew
    · rw [if_pos hold, if_neg (Nat.ne_of_gt hold)]
      rfl
    · have hindex : n - p.size = 0 ↔ p.size = n := by omega
      rw [if_neg (Nat.not_lt.mpr hnew), Constant.join_slots, get?_of_size_le hnew]
      simp only [hindex]

/-! ### pushes one after the other -/

theorem pushAll_append (p : ConstantPool) (cs ds : List Constant) :
    p.pushAll (cs ++ ds) = (p.pushAll cs).pushAll ds :=
  List.foldl_append

theorem size_le_size_pushAll (p : ConstantPool) (cs : List Constant) : p.size ≤ (p.pushAll cs).size := by
  induction cs generalizing p with
  | nil => exact Nat.le_refl _
  | cons c cs ih => exact Nat.le_trans (size_le_size_push p c) (ih (p.push c).1)

/-- **A slot that is there never changes again.** -/
theorem get?_pushAll_of_lt (cs : List Constant) (h : n < p.size) : (p.pushAll cs).get? n = p.get? n := by
  induction cs generalizing p with
  | nil => rfl
  | cons c cs ih =>
    have hindex : (p.push c).2 ≠ some n := by
      intro hn
      have := (index_of_push.mp hn).1
      omega
    have hsize : n < (p.push c).1.size := Nat.lt_of_lt_of_le h (size_le_size_push p c)
    calc (p.pushAll (c :: cs)).get? n = (p.push c).1.get? n := ih hsize
      _ = p.get? n := by rw [get?_push, if_neg hindex]

/-- A constant is found at its index however many come behind it. -/
theorem get?_of_index (h : (p.push c).2 = some i) (later : List Constant) :
    ((p.push c).1.pushAll later).get? i = some c := by
  have hfound : (p.push c).1.get? i = some c := by rw [get?_push, if_pos h]
  rw [get?_pushAll_of_lt later (lt_size_of_get? hfound), hfound]

/-- The second slot of a wide constant stays empty. -/
theorem get?_succ_of_index (h : (p.push c).2 = some i) (hwide : c.isWide = true) (later : List Constant) :
    ((p.push c).1.pushAll later).get? (i + 1) = none := by
  obtain ⟨rfl, -⟩ := index_of_push.mp h
  have hsize : (p.push c).1.size = p.size + 2 := by rw [size_of_index h, Constant.width, if_pos hwide]
  have hindex : (p.push c).2 ≠ some (p.size + 1) := by simp [h]
  rw [get?_pushAll_of_lt later (by omega), get?_push, if_neg hindex, get?_of_size_le (by omega)]

/-- **What is found behind some pushes was found before them or was put there by one of them.** -/
theorem get?_pushAll_eq_some_iff {cs : List Constant} :
    (p.pushAll cs).get? n = some c ↔
      p.get? n = some c ∨
        ∃ front back, cs = front ++ c :: back ∧ ((p.pushAll front).push c).2 = some n := by
  constructor
  · intro h
    induction cs generalizing p with
    | nil => exact .inl h
    | cons d cs ih =>
      rcases ih (p := (p.push d).1) h with hbefore | ⟨front, back, rfl, hindex⟩
      · rw [get?_push] at hbefore
        split at hbefore
        · rename_i hindex
          cases hbefore
          exact .inr ⟨[], cs, rfl, hindex⟩
        · exact .inl hbefore
      · exact .inr ⟨d :: front, back, rfl, hindex⟩
  · rintro (hbefore | ⟨front, back, rfl, hindex⟩)
    · rw [get?_pushAll_of_lt cs (lt_size_of_get? hbefore), hbefore]
    · rw [pushAll_append]
      exact get?_of_index hindex back

/-- Indices that are given out later lie behind the slots of the constant. -/
theorem index_le_of_later (h : (p.push c).2 = some i) {front : List Constant} {d : Constant} {j : Nat}
    (hj : (((p.push c).1.pushAll front).push d).2 = some j) : i + c.width ≤ j := by
  obtain ⟨rfl, -⟩ := index_of_push.mp h
  obtain ⟨rfl, -⟩ := index_of_push.mp hj
  rw [← size_of_index h]
  exact size_le_size_pushAll _ front

/-! ### a pool in use -/

/-- Nothing is found at an index that was not given out. -/
theorem get?_eq_none_of_not_index {cs : List Constant}
    (h : ∀ front d back, cs = front ++ d :: back → ((empty.pushAll front).push d).2 ≠ some n) :
    (empty.pushAll cs).get? n = none := by
  cases hfound : (empty.pushAll cs).get? n with
  | none => rfl
  | some d =>
    rcases get?_pushAll_eq_some_iff.mp hfound with hempty | ⟨front, back, hsplit, hindex⟩
    · obtain rfl : n = 0 := Nat.lt_one_iff.mp (lt_size_of_get? hempty)
      cases hempty
    · exact absurd hindex (h front d back hsplit)

theorem one_le_size_pushAll (cs : List Constant) : 1 ≤ (empty.pushAll cs).size :=
  size_le_size_pushAll empty cs

theorem size_pushAll_le {cs : List Constant} (h : p.size ≤ maxSlots) : (p.pushAll cs).size ≤ maxSlots := by
  induction cs generalizing p with
  | nil => exact h
  | cons c cs ih =>
    have hpush : (p.push c).1.size ≤ maxSlots := by
      rw [size_push]
      split <;> omega
    exact ih hpush

/-- A new pool is pushed on, then `c` is pushed, then more.  The push gives an index exactly if the slots
of `c` fit, the next one behind those in use; `c` is found there for good and its second slot stays empty,
and no later index runs into them.  A push without an index changes nothing.  Nothing is found at an index
that was not given out, and all indices fit two bytes. -/
theorem constants_keep_their_indices (before : List Constant) (c : Constant) (later : List Constant) :
    let p := empty.pushAll before
    let q := (p.push c).1
    let index := (p.push c).2
    p.size ≤ 65535 ∧
      ((∃ i, index = some i) ↔ p.size + c.width ≤ 65535) ∧
      (∀ i, index = some i →
        i = p.size ∧ 1 ≤ i ∧ i ≤ 65534 ∧ q.size = p.size + c.width ∧
          (q.pushAll later).get? i = some c ∧
          (c.isWide = true → (q.pushAll later).get? (i + 1) = none) ∧
          ∀ front d back j, later = front ++ d :: back → ((q.pushAll front).push d).2 = some j →
            i + c.width ≤ j) ∧
      (index = none → q = p) ∧
      (∀ n, (∀ front d back, before = front ++ d :: back → ((empty.pushAll front).push d).2 ≠ some n) →
        p.get? n = none) ∧
      p.get? 0 = none ∧ ∀ n, p.size ≤ n → p.get? n = none := by
  intro p q index
  have hsize : p.size ≤ 65535 := size_pushAll_le (p := empty) (by decide)
  have hzero : p.get? 0 = none := get?_pushAll_of_lt before (p := empty) Nat.zero_lt_one
  refine ⟨hsize, ?_, ?_, push_eq_of_none,
    fun n => get?_eq_none_of_not_index, hzero, fun n => get?_of_size_le⟩
  · constructor
    · rintro ⟨i, hi⟩
      exact (index_of_push.mp hi).2
    · intro hfits
      exact ⟨p.size, index_of_push.mpr ⟨rfl, hfits⟩⟩
  · intro i hi
    obtain ⟨hsame, hfits⟩ := index_of_push.mp hi
    have hpositive : 1 ≤ p.size := one_le_size_pushAll before
    have hwidth : 1 ≤ c.width := c.one_le_width
    refine ⟨hsame, by omega, ?_, size_of_index hi, get?_of_index hi later,
      fun hwide => get?_succ_of_index hi hwide later, ?_⟩
    · unfold maxSlots at hfits
      omega
    · rintro front d back j - hj
      exact index_le_of_later hi hj

/-- A long constant has two slots between an integer and a text. -/
theorem long_between_integer_and_text :
    let p := empty.pushAll [.integer 5]
    let q := (p.push (.long 7)).1
    (p.push (.long 7)).2 = some 2 ∧ (q.pushAll [.utf8 "x"]).get? 2 = some (.long 7) ∧
      (q.pushAll [.utf8 "x"]).get? 3 = none ∧ p.get? 5 = none := by
  intro p q
  obtain ⟨-, -, hkept, -, -, -, hbeyond⟩ := constants_keep_their_indices [.integer 5] (.long 7) [.utf8 "x"]
  have hindex : (p.push (.long 7)).2 = some 2 := by decide
  obtain ⟨-, -, -, -, hfound, hsecond, -⟩ := hkept 2 hindex
  exact ⟨hindex, hfound, hsecond rfl, hbeyond 5 (by decide)⟩

end ConstantPool

end ClassMetadata.ClassFile
