import ClassMetadata.Signature.Printer
import ClassMetadata.Signature.Reader

/-!
# Well-formed signatures

The trees of the signature language, said of the tree alone.

* `IsIdentifier`, `IsPathName`: the names that a text can spell;
* `Signature.Legal`: names, paths, arguments and array dimensions are as the language has them, at every
  depth of the tree;
* `Signature.argumentNesting`: how deep the argument lists of a tree nest;
* `Signature.WellFormed`: **a whole signature**, `void` or a legal type within the limit on nesting;
* `Signature.Fits`: the same from inside a signature, below so many argument lists.
-/

namespace ClassMetadata

/-! ### names -/

/-- A name that is one identifier: some characters, none of which ends an identifier. -/
def IsIdentifier (name : String) : Prop := name ≠ "" ∧ ∀ c ∈ name.toList, isDelimiter c = false

/-- The first name of a class path: identifiers joined by slashes. -/
def IsPathName (name : String) : Prop :=
  ∃ pieces : List String, pieces ≠ [] ∧ (∀ p ∈ pieces, IsIdentifier p) ∧ name = "/".intercalate pieces

/-- Pieces of a path name, each with its slash. -/
def slashed (pieces : List String) : List Char := pieces.flatMap fun p => p.toList ++ ['/']

theorem toList_intercalate_slash (pieces : List String) (last : String) :
    ("/".intercalate (pieces ++ [last])).toList = slashed pieces ++ last.toList := by
  induction pieces with
  | nil => simp [slashed]
  | cons p pieces ih =>
    rw [List.cons_append, String.intercalate_cons_of_ne_nil (by simp), String.toList_append,
      String.toList_append, ih]
    simp [slashed]

/-- A path name is closed by its last identifier, behind pieces with their slashes. -/
theorem isPathName_iff {name : String} :
    IsPathName name ↔ ∃ pieces last, (∀ p ∈ pieces, IsIdentifier p) ∧ IsIdentifier last ∧
      name.toList = slashed pieces ++ last.toList := by
  constructor
  · rintro ⟨pieces, hne, hp, rfl⟩
    obtain ⟨front, last, rfl⟩ : ∃ front last, pieces = front ++ [last] :=
      ⟨pieces.dropLast, pieces.getLast hne, (List.dropLast_concat_getLast hne).symm⟩
    refine ⟨front, last, fun p h => hp p (by simp [h]), hp last (by simp), ?_⟩
    exact toList_intercalate_slash front last
  · rintro ⟨front, last, hf, hl, h⟩
    refine ⟨front ++ [last], by simp, ?_, ?_⟩
    · intro p hp
      rcases List.mem_append.1 hp with h | h
      · exact hf p h
      · rw [List.mem_singleton.1 h]
        exact hl
    · rw [← String.toList_inj, h, toList_intercalate_slash]

/-- The names along a class path: only the first one may have slashes, and there is a first one. -/
def Segment.NamesLegal : List Segment → Prop
  | [] => False
  | first :: inner => IsPathName first.name ∧ ∀ segment ∈ inner, IsIdentifier segment.name

/-- A segment at the end of a path. -/
theorem Segment.namesLegal_append_singleton {path : List Segment} {last : Segment} :
    NamesLegal (path ++ [last]) ↔
      (path = [] ∧ IsPathName last.name) ∨ (NamesLegal path ∧ IsIdentifier last.name) := by
  cases path with
  | nil => simp [NamesLegal]
  | cons first inner =>
    simp only [List.cons_append, NamesLegal, List.mem_append, List.mem_singleton, reduceCtorEq,
      false_and, false_or, and_assoc]
    constructor
    · rintro ⟨h, ha⟩
      exact ⟨h, fun s hs => ha s (.inl hs), ha last (.inr rfl)⟩
    · rintro ⟨h, ha, hl⟩
      refine ⟨h, ?_⟩
      rintro s (hs | rfl)
      · exact ha s hs
      · exact hl

/-! ### trees -/

/-- What an argument can be and a component need not be: neither a base type nor `void`. -/
def Signature.IsReference : Signature → Prop
  | .classType _ | .array _ | .typeVariable _ => True
  | .base _ | .void => False

mutual

/-- A type as it can stand inside a signature.  The innermost array of a chain sees one dimension and the
outermost sees all of them, so the limit on every array is the limit on every chain. -/
def Signature.Legal : Signature → Prop
  | .base _ => True
  | .void => False
  | .classType path => Segment.NamesLegal path ∧ Segment.ArgumentsLegal path
  | .array component => component.dimensions + 1 ≤ maxDimensions ∧ component.Legal
  | .typeVariable name => IsIdentifier name

def Segment.ArgumentsLegal : List Segment → Prop
  | [] => True
  | ⟨_, arguments⟩ :: path => TypeArgument.AllLegal arguments ∧ Segment.ArgumentsLegal path

def TypeArgument.Legal : TypeArgument → Prop
  | .unbounded => True
  | .exactly t => t.IsReference ∧ t.Legal
  | .upperBound t => t.IsReference ∧ t.Legal
  | .lowerBound t => t.IsReference ∧ t.Legal

def TypeArgument.AllLegal : List TypeArgument → Prop
  | [] => True
  | argument :: rest => argument.Legal ∧ TypeArgument.AllLegal rest

end

mutual

/-- The depth to which argument lists nest in a type. -/
def Signature.argumentNesting : Signature → Nat
  | .classType path => Segment.argumentNesting path
  | .array component => component.argumentNesting
  | _ => 0

def Segment.argumentNesting : List Segment → Nat
  | [] => 0
  | ⟨_, arguments⟩ :: path => max (TypeArgument.listNesting arguments) (Segment.argumentNesting path)

def TypeArgument.argumentNesting : TypeArgument → Nat
  | .unbounded => 0
  | .exactly t => t.argumentNesting
  | .upperBound t => t.argumentNesting
  | .lowerBound t => t.argumentNesting

/-- The depth of an argument list, itself counted; an empty list is none. -/
def TypeArgument.listNesting : List TypeArgument → Nat
  | [] => 0
  | argument :: rest => max (argument.argumentNesting + 1) (TypeArgument.listNesting rest)

end

/-- A whole signature: `void`, or a legal type in which argument lists do not nest too deep. -/
def Signature.WellFormed (t : Signature) : Prop :=
  t = .void ∨ (t.Legal ∧ t.argumentNesting ≤ maxArgumentNesting)

/-! ### from inside -/

theorem TypeArgument.allLegal_iff (as : List TypeArgument) : AllLegal as ↔ ∀ a ∈ as, a.Legal := by
  induction as with
  | nil => simp [AllLegal]
  | cons a as ih => simp [AllLegal, ih]

theorem Segment.argumentsLegal_iff (path : List Segment) :
    ArgumentsLegal path ↔ ∀ s ∈ path, ∀ a ∈ s.arguments, a.Legal := by
  induction path with
  | nil => simp [ArgumentsLegal]
  | cons s path ih =>
    obtain ⟨name, arguments⟩ := s
    simp [ArgumentsLegal, TypeArgument.allLegal_iff, ih]

theorem TypeArgument.listNesting_le_iff (as : List TypeArgument) (n : Nat) :
    listNesting as ≤ n ↔ ∀ a ∈ as, a.argumentNesting < n := by
  induction as with
  | nil => simp [listNesting]
  | cons a as ih =>
    rw [listNesting, Nat.max_le, List.forall_mem_cons, ih]
    rfl

theorem Segment.argumentNesting_le_iff (path : List Segment) (n : Nat) :
    argumentNesting path ≤ n ↔ ∀ s ∈ path, ∀ a ∈ s.arguments, a.argumentNesting < n := by
  induction path with
  | nil => simp [argumentNesting]
  | cons s path ih =>
    obtain ⟨name, arguments⟩ := s
    rw [argumentNesting, Nat.max_le, List.forall_mem_cons, TypeArgument.listNesting_le_iff, ih]

/-- A type that can stand below so many argument lists. -/
def Signature.Fits (depth : Nat) (t : Signature) : Prop :=
  t.Legal ∧ depth + t.argumentNesting ≤ maxArgumentNesting

/-- An argument that can stand below so many argument lists, its own counted. -/
def TypeArgument.Fits (depth : Nat) (a : TypeArgument) : Prop :=
  a.Legal ∧ depth + a.argumentNesting ≤ maxArgumentNesting

/-- A class path fits as its names and the arguments of its segments do. -/
theorem Signature.fits_classType {depth : Nat} (hd : depth ≤ maxArgumentNesting) {path : List Segment} :
    (Signature.classType path).Fits depth ↔
      Segment.NamesLegal path ∧ ∀ s ∈ path, ∀ a ∈ s.arguments, a.Fits (depth + 1) := by
  have hn : depth + (Signature.classType path).argumentNesting ≤ maxArgumentNesting ↔
      ∀ s ∈ path, ∀ a ∈ s.arguments, depth + 1 + a.argumentNesting ≤ maxArgumentNesting := by
    rw [Signature.argumentNesting, Nat.add_comm, ← Nat.le_sub_iff_add_le hd,
      Segment.argumentNesting_le_iff]
    refine forall₂_congr fun s _ => forall₂_congr fun a _ => ?_
    omega
  unfold Signature.Fits TypeArgument.Fits
  rw [hn, Signature.Legal, Segment.argumentsLegal_iff, and_assoc]
  refine and_congr_right fun _ => ⟨fun h s hs a ha => ⟨h.1 s hs a ha, h.2 s hs a ha⟩, fun h => ?_⟩
  exact ⟨fun s hs a ha => (h s hs a ha).1, fun s hs a ha => (h s hs a ha).2⟩

end ClassMetadata
