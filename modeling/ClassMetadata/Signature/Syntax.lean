/-!
# Type signatures

The trees that the signature language of class files describes, and the names that a tree gives to
classes.

* `BaseType`: the eight primitive types, each with a descriptor letter and a keyword;
* `Signature`: a base type, `void`, an array, a type variable, or a class given by a path of segments
  `Name<Arguments>`, outermost class first;
* `segmentNames`: the binary name of every class on a path (`pkg/Map`, `Entry` give `pkg.Map` and
  `pkg.Map$Entry`);
* `Signature.beq_iff`: **equality of trees is decidable**.
-/

namespace ClassMetadata

/-! ### base types -/

/-- The primitive types. -/
inductive BaseType
  | byte | char | double | float | int | long | short | boolean
  deriving DecidableEq, Repr

namespace BaseType

/-- Every base type once, in the order of the descriptor letters. -/
def all : List BaseType := [byte, char, double, float, int, long, short, boolean]

/-- The letter that stands for the type in a signature. -/
def descriptor : BaseType → Char
  | byte => 'B' | char => 'C' | double => 'D' | float => 'F'
  | int => 'I' | long => 'J' | short => 'S' | boolean => 'Z'

def keyword : BaseType → String
  | byte => "byte" | char => "char" | double => "double" | float => "float"
  | int => "int" | long => "long" | short => "short" | boolean => "boolean"

/-- The base type with a given letter. -/
def ofDescriptor? : Char → Option BaseType
  | 'B' => some byte | 'C' => some char | 'D' => some double | 'F' => some float
  | 'I' => some int | 'J' => some long | 'S' => some short | 'Z' => some boolean
  | _ => none

/-- The base type with a given keyword. -/
def ofKeyword? (word : String) : Option BaseType := all.find? (·.keyword == word)

theorem ofDescriptor?_descriptor (t : BaseType) : ofDescriptor? t.descriptor = some t := by
  cases t <;> rfl

theorem ofDescriptor?_eq_some_iff {c : Char} {t : BaseType} :
    ofDescriptor? c = some t ↔ c = t.descriptor := by
  constructor
  · intro h
    unfold ofDescriptor? at h
    split at h <;> simp_all [descriptor] <;> (subst h; rfl)
  · rintro rfl
    exact ofDescriptor?_descriptor t

end BaseType

/-! ### trees -/

mutual

inductive Signature
  | base (type : BaseType)
  /-- no type at all: legal only as a whole signature -/
  | void
  /-- a class, outermost segment first -/
  | classType (path : List Segment)
  | array (component : Signature)
  | typeVariable (name : String)

/-- One `Name<Arguments>` step of a class path.  The first name of a path keeps the package in front of
it, with slashes. -/
structure Segment where
  name : String
  arguments : List TypeArgument

/-- What may stand between the brackets: `*`, a type, `+` an upper bound or `-` a lower bound. -/
inductive TypeArgument
  | unbounded
  | exactly (type : Signature)
  | upperBound (type : Signature)
  | lowerBound (type : Signature)

end

namespace Signature

/-- The number of array dimensions around the innermost component. -/
def dimensions : Signature → Nat
  | .array component => component.dimensions + 1
  | _ => 0

end Signature

/-! ### names on a class path -/

/-- A package path with dots for slashes. -/
def dotted (name : String) : String :=
  String.ofList (name.toList.map fun c => if c = '/' then '.' else c)

/-- The binary names of nested classes, when the class around the first one is `outer`. -/
def nestedNames (outer : String) : List Segment → List String
  | [] => []
  | segment :: rest =>
    let name := outer ++ "$" ++ segment.name
    name :: nestedNames name rest

/-- The binary name of the class at every segment of a path. -/
def segmentNames : List Segment → List String
  | [] => []
  | first :: rest => dotted first.name :: nestedNames (dotted first.name) rest

/-- The binary name of the innermost class; the empty path has the empty name. -/
def binaryName (path : List Segment) : String := (segmentNames path).getLast?.getD ""

/-- Whether some segment of the path has type arguments. -/
def isParameterized (path : List Segment) : Bool := path.any fun segment => !segment.arguments.isEmpty

/-! ### equality of trees -/

mutual

def Signature.beq : Signature → Signature → Bool
  | .base s, .base t => s == t
  | .void, .void => true
  | .classType p, .classType q => Segment.beqAll p q
  | .array s, .array t => s.beq t
  | .typeVariable m, .typeVariable n => m == n
  | _, _ => false

def Segment.beqAll : List Segment → List Segment → Bool
  | [], [] => true
  | ⟨m, as⟩ :: p, ⟨n, bs⟩ :: q => m == n && TypeArgument.beqAll as bs && Segment.beqAll p q
  | _, _ => false

def TypeArgument.beq : TypeArgument → TypeArgument → Bool
  | .unbounded, .unbounded => true
  | .exactly s, .exactly t => s.beq t
  | .upperBound s, .upperBound t => s.beq t
  | .lowerBound s, .lowerBound t => s.beq t
  | _, _ => false

def TypeArgument.beqAll : List TypeArgument → List TypeArgument → Bool
  | [], [] => true
  | a :: as, b :: bs => a.beq b && TypeArgument.beqAll as bs
  | _, _ => false

end

mutual

theorem Signature.beq_iff : ∀ s t : Signature, s.beq t = true ↔ s = t
  | .base _, t => by cases t <;> simp [Signature.beq]
  | .void, t => by cases t <;> simp [Signature.beq]
  | .classType p, t => by cases t <;> simp [Signature.beq, Segment.beqAll_iff p]
  | .array s, t => by cases t <;> simp [Signature.beq, Signature.beq_iff s]
  | .typeVariable _, t => by cases t <;> simp [Signature.beq]

theorem Segment.beqAll_iff : ∀ p q : List Segment, Segment.beqAll p q = true ↔ p = q
  | [], q => by cases q <;> simp [Segment.beqAll]
  | ⟨_, as⟩ :: p, q => by
    cases q with
    | nil => simp [Segment.beqAll]
    | cons t q =>
      cases t
      simp [Segment.beqAll, TypeArgument.beqAll_iff as, Segment.beqAll_iff p]

theorem TypeArgument.beq_iff : ∀ a b : TypeArgument, a.beq b = true ↔ a = b
  | .unbounded, b => by cases b <;> simp [TypeArgument.beq]
  | .exactly s, b => by cases b <;> simp [TypeArgument.beq, Signature.beq_iff s]
  | .upperBound s, b => by cases b <;> simp [TypeArgument.beq, Signature.beq_iff s]
  | .lowerBound s, b => by cases b <;> simp [TypeArgument.beq, Signature.beq_iff s]

theorem TypeArgument.beqAll_iff : ∀ as bs : List TypeArgument, TypeArgument.beqAll as bs = true ↔ as = bs
  | [], bs => by cases bs <;> simp [TypeArgument.beqAll]
  | a :: as, bs => by
    cases bs with
    | nil => simp [TypeArgument.beqAll]
    | cons b bs => simp [TypeArgument.beqAll, TypeArgument.beq_iff a, TypeArgument.beqAll_iff as]

end

instance : DecidableEq Signature := fun s t => decidable_of_iff _ (Signature.beq_iff s t)
instance : DecidableEq TypeArgument := fun a b => decidable_of_iff _ (TypeArgument.beq_iff a b)
instance : DecidableEq Segment := fun s t =>
  decidable_of_iff _ ((Segment.beqAll_iff [s] [t]).trans (by simp))

end ClassMetadata
