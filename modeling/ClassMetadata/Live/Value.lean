import ClassMetadata.Literal

/-!
# Live values

What an annotation element holds once everything it names is resolved.  Resolved types, values and
annotations refer to classes; what a class is, is left open here (`κ`), since a class itself holds values,
the defaults of its elements.

* `ResolvedType κ`: types with the classes in them found;
* `Value κ`, `Annotation κ`: values, and annotations with their named values in order;
* `ResolvedType.same`, `Value.same`, `Annotation.same`: **equality of live things**: classes by their
  own equality, literals bit by bit, the values of an annotation by name whatever their order.
-/

namespace ClassMetadata

/-- A type whose classes are found. -/
inductive ResolvedType (κ : Type)
  | primitive (type : BaseType)
  | void
  /-- a raw class or one that is not generic -/
  | classType (target : κ)
  | array (component : ResolvedType κ)
  /-- a generic class with arguments, and the type around it if it is an inner class -/
  | parameterized (raw : κ) (arguments : List (ResolvedType κ)) (owner : Option (ResolvedType κ))
  | typeVariable (name : String) (declaring : κ)
  | wildcard (upper lower : List (ResolvedType κ))

namespace ResolvedType

variable {κ : Type}

/-- The class of a plain class type. -/
def asClass? : ResolvedType κ → Option κ
  | .classType c => some c
  | _ => none

/-- The class of a plain or parameterized class type. -/
def rawClass? : ResolvedType κ → Option κ
  | .classType c => some c
  | .parameterized raw _ _ => some raw
  | _ => none

end ResolvedType

namespace Live

mutual

inductive Value (κ : Type)
  | literal (value : Literal)
  | classLiteral (type : ResolvedType κ)
  | enumConstant (type : κ) (name : String) (ordinal : Nat)
  | nested (value : Annotation κ)
  | array (elements : List (Value κ))

/-- An annotation: its type and the values of its elements. -/
structure Annotation (κ : Type) where
  type : κ
  entries : List (String × Value κ)

end

namespace Annotation

variable {κ : Type}

/-- The value of an element. -/
def get? (a : Annotation κ) (name : String) : Option (Value κ) := a.entries.lookup name

def size (a : Annotation κ) : Nat := a.entries.length

end Annotation

end Live

/-! ### equality -/

section Same

variable {κ : Type} [BEq κ]

mutual

def ResolvedType.same : ResolvedType κ → ResolvedType κ → Bool
  | .primitive s, .primitive t => s == t
  | .void, .void => true
  | .classType c, .classType d => c == d
  | .array s, .array t => s.same t
  | .parameterized c as s, .parameterized d bs t =>
    c == d && ResolvedType.sameAll as bs && ResolvedType.sameOwner s t
  | .typeVariable m c, .typeVariable n d => m == n && c == d
  | .wildcard us ls, .wildcard vs ms => ResolvedType.sameAll us vs && ResolvedType.sameAll ls ms
  | _, _ => false

def ResolvedType.sameAll : List (ResolvedType κ) → List (ResolvedType κ) → Bool
  | [], [] => true
  | s :: ss, t :: ts => s.same t && ResolvedType.sameAll ss ts
  | _, _ => false

def ResolvedType.sameOwner : Option (ResolvedType κ) → Option (ResolvedType κ) → Bool
  | none, none => true
  | some s, some t => s.same t
  | _, _ => false

end

mutual

def Live.Value.same : Live.Value κ → Live.Value κ → Bool
  | .literal a, .literal b => a == b
  | .classLiteral s, .classLiteral t => s.same t
  | .enumConstant c m i, .enumConstant d n j => c == d && m == n && i == j
  | .nested a, .nested b => a.same b
  | .array vs, .array ws => Live.Value.sameAll vs ws
  | _, _ => false

def Live.Value.sameAll : List (Live.Value κ) → List (Live.Value κ) → Bool
  | [], [] => true
  | v :: vs, w :: ws => v.same w && Live.Value.sameAll vs ws
  | _, _ => false

def Live.Annotation.same : Live.Annotation κ → Live.Annotation κ → Bool
  | ⟨c, es⟩, ⟨d, fs⟩ => c == d && es.length == fs.length && Live.Value.sameIn fs es

/-- Whether every one of the entries has the same value in `fs`. -/
def Live.Value.sameIn (fs : List (String × Live.Value κ)) : List (String × Live.Value κ) → Bool
  | [] => true
  | (name, v) :: es =>
    (match fs.lookup name with
      | some w => v.same w
      | none => false) && Live.Value.sameIn fs es

end

end Same

end ClassMetadata
