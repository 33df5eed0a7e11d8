/-!
# Sets of names

A set of names kept as a strictly increasing list, so that equal sets are equal values and the members
come in one order, that of their characters.
-/

namespace ClassMetadata

/-- A set of names: its members in strictly increasing order. -/
structure NameSet where
  toList : List String
  increasing : toList.Pairwise (· < ·)
  deriving DecidableEq

namespace NameSet

def empty : NameSet := ⟨[], List.Pairwise.nil⟩

instance : EmptyCollection NameSet := ⟨empty⟩

instance : Membership String NameSet := ⟨fun s name => name ∈ s.toList⟩

/-- Puts a name at its place in an increasing list. -/
def insertOrdered (name : String) : List String → List String
  | [] => [name]
  | n :: rest =>
    if name < n then name :: n :: rest
    else if name = n then n :: rest
    else n :: insertOrdered name rest

theorem mem_insertOrdered {name n : String} {l : List String} :
    n ∈ insertOrdered name l ↔ n = name ∨ n ∈ l := by
  induction l with
  | nil => simp [insertOrdered]
  | cons m rest ih =>
    unfold insertOrdered
    split
    · simp
    · split
      · rename_i h
        simp [h]
      · simp [ih, or_left_comm]

theorem pairwise_insertOrdered {name : String} {l : List String} (h : l.Pairwise (· < ·)) :
    (insertOrdered name l).Pairwise (· < ·) := by
  induction l with
  | nil => simp [insertOrdered]
  | cons m rest ih =>
    rw [List.pairwise_cons] at h
    unfold insertOrdered
    split
    · rename_i hlt
      refine List.pairwise_cons.2 ⟨?_, List.pairwise_cons.2 h⟩
      intro a ha
      rcases List.mem_cons.1 ha with rfl | ha
      · exact hlt
      · exact String.lt_trans hlt (h.1 a ha)
    · split
      · exact List.pairwise_cons.2 h
      · rename_i hlt hne
        refine List.pairwise_cons.2 ⟨?_, ih h.2⟩
        intro a ha
        rcases mem_insertOrdered.1 ha with rfl | ha
        · apply Decidable.byContradiction
          intro hm
          exact hne (String.le_antisymm (String.not_lt.1 hm) (String.not_lt.1 hlt))
        · exact h.1 a ha

theorem insertOrdered_of_mem {name : String} {l : List String} (h : l.Pairwise (· < ·)) (hmem : name ∈ l) :
    insertOrdered name l = l := by
  induction l with
  | nil => cases hmem
  | cons m rest ih =>
    obtain ⟨hbelow, hrest⟩ := List.pairwise_cons.1 h
    unfold insertOrdered
    rcases List.mem_cons.1 hmem with rfl | hmem
    · rw [if_neg (String.lt_irrefl name), if_pos rfl]
    · have hlt : m < name := hbelow name hmem
      have hne : name ≠ m := by
        rintro rfl
        exact String.lt_irrefl name hlt
      rw [if_neg (String.lt_asymm hlt), if_neg hne, ih hrest hmem]

def insert (name : String) (s : NameSet) : NameSet :=
  ⟨insertOrdered name s.toList, pairwise_insertOrdered s.increasing⟩

/-- Puts in all names of a list. -/
def insertAll (names : List String) (s : NameSet) : NameSet :=
  names.foldl (fun s name => s.insert name) s

def ofList (names : List String) : NameSet := insertAll names ∅

def isEmpty (s : NameSet) : Bool := s.toList.isEmpty

def contains (s : NameSet) (name : String) : Bool := s.toList.contains name

theorem mem_def {name : String} {s : NameSet} : name ∈ s ↔ name ∈ s.toList := Iff.rfl

theorem contains_iff {s : NameSet} {name : String} : s.contains name = true ↔ name ∈ s :=
  List.contains_iff_mem

theorem not_mem_empty {name : String} : ¬ name ∈ (∅ : NameSet) := List.not_mem_nil

theorem mem_insert {name n : String} {s : NameSet} : n ∈ s.insert name ↔ n = name ∨ n ∈ s :=
  mem_insertOrdered

/-- A member that is put in again changes nothing. -/
theorem insert_of_mem {name : String} {s : NameSet} (h : name ∈ s) : s.insert name = s := by
  unfold insert
  simp only [insertOrdered_of_mem s.increasing h]

theorem insertAll_nil (s : NameSet) : s.insertAll [] = s := rfl

theorem insertAll_cons (name : String) (names : List String) (s : NameSet) :
    s.insertAll (name :: names) = (s.insert name).insertAll names := rfl

theorem mem_insertAll {n : String} {names : List String} {s : NameSet} :
    n ∈ s.insertAll names ↔ n ∈ names ∨ n ∈ s := by
  induction names generalizing s with
  | nil => simp [insertAll]
  | cons name names ih =>
    rw [insertAll_cons, ih, mem_insert]
    simp [or_left_comm, or_assoc]

theorem insertAll_eq_self_iff {names : List String} {s : NameSet} :
    s.insertAll names = s ↔ ∀ name ∈ names, name ∈ s := by
  constructor
  · intro h name hname
    rw [← h]
    exact mem_insertAll.2 (.inl hname)
  · intro h
    induction names with
    | nil => exact insertAll_nil s
    | cons name names ih =>
      rw [insertAll_cons, insert_of_mem (h name List.mem_cons_self)]
      exact ih fun n hn => h n (List.mem_cons_of_mem name hn)

theorem mem_ofList {n : String} {names : List String} : n ∈ ofList names ↔ n ∈ names := by
  simp [ofList, mem_insertAll, not_mem_empty]

end NameSet

end ClassMetadata
