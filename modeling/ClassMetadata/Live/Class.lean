import ClassMetadata.Live.Value

/-!
# Classes

What annotations need to know of a class: its kind, its type parameters, the class around it, the
constants of an enum and the elements of an annotation interface.  Two classes are equal (`==`) when they
have the same name.

* `Class.declare`, `Class.withConstants`, …: a class put together from its name and kind;
* `Class.element?`, `Class.ordinal?`, `Class.declares`: what is found in it.
-/

namespace ClassMetadata

inductive ClassKind
  | plain | interface | enum | annotationInterface
  deriving DecidableEq, Repr

/-- The type that an annotation interface declares for an element.  Enums and annotations are named by
their binary names. -/
inductive ElementType
  | literal (type : LiteralType)
  | classLiteral
  | enum (name : String)
  | nested (name : String)
  | array (component : ElementType)
  deriving DecidableEq, Repr

/-- An element of an annotation interface. -/
structure Element (κ : Type) where
  name : String
  type : ElementType
  default? : Option (Live.Value κ)

structure Class where
  /-- the binary name -/
  name : String
  kind : ClassKind
  typeParameters : List String
  /-- the binary name of the class around this one -/
  enclosing : Option String
  /-- the constants of an enum by ordinal -/
  constants : List String
  /-- the elements of an annotation interface as they are declared -/
  elements : List (Element Class)

instance : BEq Class := ⟨fun c d => c.name == d.name⟩

theorem Class.beq_iff {c d : Class} : (c == d) = true ↔ c.name = d.name := by
  change (c.name == d.name) = true ↔ _
  exact beq_iff_eq

namespace Class

/-! ### putting a class together -/

/-- A class of which only the kind and the name are known. -/
def named (kind : ClassKind) (name : String) : Class := ⟨name, kind, [], none, [], []⟩

def withTypeParameters (c : Class) (names : List String) : Class := { c with typeParameters := names }

def enclosedBy (c : Class) (outer : String) : Class := { c with enclosing := some outer }

def withConstants (c : Class) (names : List String) : Class := { c with constants := names }

/-- Adds an element behind those already declared. -/
def declare (c : Class) (name : String) (type : ElementType) (default? : Option (Live.Value Class)) :
    Class :=
  { c with elements := c.elements ++ [⟨name, type, default?⟩] }

/-! ### questions -/

/-- The first element of a name. -/
def element? (c : Class) (name : String) : Option (Element Class) :=
  c.elements.find? fun e => e.name == name

/-- The place of an enum constant. -/
def ordinal? (c : Class) (constant : String) : Option Nat := c.constants.idxOf? constant

/-- Whether the class has a type parameter of that name. -/
def declares (c : Class) (variableName : String) : Bool := c.typeParameters.contains variableName

def isEnum (c : Class) : Bool := c.kind == .enum

def isAnnotation (c : Class) : Bool := c.kind == .annotationInterface

theorem isAnnotation_iff {c : Class} : c.isAnnotation = true ↔ c.kind = .annotationInterface := by
  unfold isAnnotation
  exact beq_iff_eq

end Class

end ClassMetadata
