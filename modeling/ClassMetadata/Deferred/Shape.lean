import ClassMetadata.Deferred.Node
import ClassMetadata.Signature.Reader

/-!
# Arrays of one shape

The elements of an array are of one type.  As long as types are texts this is judged by the `Shape` of a
value: its kind, and for enums and annotations the binary name of the type, so that the two spellings of
an inner class agree.  Two shapes are compared by their texts.

* `Value.checkedArray`: an array, unless an element is an array itself or has another shape than the
  first.
-/

namespace ClassMetadata.Deferred

/-- What must agree among the elements of an array. -/
inductive Shape
  | literal (type : LiteralType)
  | classLiteral
  | enum (name : String)
  | nested (name : String)
  | array
  deriving DecidableEq, Repr

def Shape.text : Shape → String
  | literal (.base t) => t.keyword
  | literal .string => "string"
  | classLiteral => "class"
  | enum name => "enum " ++ name
  | nested name => "annotation " ++ name
  | array => "array"

/-- The binary name of the class that a signature names; a text that names none stands for itself. -/
def binaryNameOf (signature : String) : String :=
  match Signature.parse signature with
  | .ok (.classType path) => binaryName path
  | _ => signature

/-- The binary name of the type of an annotation. -/
def Node.typeName : Node → String
  | .descriptor signature _ => binaryNameOf signature
  | .resolved a => a.type.name

def Value.shape : Value → Shape
  | .literal c => .literal c.type
  | .classLiteral _ => .classLiteral
  | .enumConstant signature _ => .enum (binaryNameOf signature)
  | .nested node => .nested node.typeName
  | .array _ => .array

/-- Why values make no array. -/
inductive ArrayError
  | heterogeneous (index : Nat) (expected found : Shape)
  | nestedArray (index : Nat)
  deriving DecidableEq, Repr

def ArrayError.message : ArrayError → String
  | heterogeneous index expected found =>
    "Array element " ++ toString index ++ " is " ++ found.text ++ ", expected " ++ expected.text
  | nestedArray index => "Array element " ++ toString index ++ " is itself an array"

/-- The first element from `index` on that cannot stand in an array whose first shape is `expected`. -/
def arrayError? (expected : Option Shape) (index : Nat) : List Value → Option ArrayError
  | [] => none
  | v :: vs =>
    if v.shape = .array then some (.nestedArray index)
    else
      match expected with
      | none => arrayError? (some v.shape) (index + 1) vs
      | some shape =>
        if shape.text = v.shape.text then arrayError? (some shape) (index + 1) vs
        else some (.heterogeneous index shape v.shape)

/-- An array of elements of one shape that are no arrays. -/
def Value.checkedArray (elements : List Value) : Except ArrayError Value :=
  match arrayError? none 0 elements with
  | none => .ok (.array elements)
  | some e => .error e

end ClassMetadata.Deferred
