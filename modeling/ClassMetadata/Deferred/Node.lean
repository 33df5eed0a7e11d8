import ClassMetadata.Live.Class
import ClassMetadata.Entries

/-!
# Deferred annotations

Annotations as a class file has them: literals are final, but classes, enums and annotation types are
still the texts of signatures.  An annotation that is live already can stand in a tree as it is.

* `Deferred.Value`, `Deferred.Node`: the trees;
* `Node.ofPairs`: a node from pairs of a name and a value, a repeated name at its first place with its
  last value;
* `Node.same`, `Value.same`: **equality of trees**: the order of attributes does not matter, and floating
  point numbers are compared as numbers, so a tree with one that is no number differs from itself.
-/

namespace ClassMetadata

namespace Deferred

mutual

inductive Value
  | literal (value : Literal)
  | classLiteral (signature : String)
  | enumConstant (signature constant : String)
  | nested (node : Node)
  | array (elements : List Value)

inductive Node
  /-- a type signature and named values in order -/
  | descriptor (signature : String) (attributes : List (String × Value))
  /-- an annotation that was live before -/
  | resolved (live : Live.Annotation Class)

end

namespace Node

/-- A node from a signature and pairs of a name and a value. -/
def ofPairs (signature : String) (pairs : List (String × Value)) : Node :=
  .descriptor signature (Entries.ofList pairs)

def isResolved : Node → Bool
  | .descriptor .. => false
  | .resolved _ => true

def signature? : Node → Option String
  | .descriptor s _ => some s
  | .resolved _ => none

def attributes? : Node → Option (List (String × Value))
  | .descriptor _ attributes => some attributes
  | .resolved _ => none

end Node

/-! ### equality -/

mutual

def Value.same : Value → Value → Bool
  | .literal a, .literal b => a.sameNumber b
  | .classLiteral s, .classLiteral t => s == t
  | .enumConstant s c, .enumConstant t d => s == t && c == d
  | .nested m, .nested n => m.same n
  | .array vs, .array ws => Value.sameAll vs ws
  | _, _ => false

def Value.sameAll : List Value → List Value → Bool
  | [], [] => true
  | v :: vs, w :: ws => v.same w && Value.sameAll vs ws
  | _, _ => false

def Node.same : Node → Node → Bool
  | .descriptor s as, .descriptor t bs => s == t && as.length == bs.length && Value.sameIn bs as
  | .resolved a, .resolved b => a.same b
  | _, _ => false

/-- Whether every one of the attributes has the same value in `bs`. -/
def Value.sameIn (bs : List (String × Value)) : List (String × Value) → Bool
  | [] => true
  | (name, v) :: as =>
    (match bs.lookup name with
      | some w => v.same w
      | none => false) && Value.sameIn bs as

end

/-- Equality of lists of nodes, place by place. -/
def Node.sameAll : List Node → List Node → Bool
  | [], [] => true
  | m :: ms, n :: ns => m.same n && sameAll ms ns
  | _, _ => false

end Deferred

end ClassMetadata
