import ClassMetadata.Live.Text
import ClassMetadata.Entries

/-!
# Making annotations

The one place where the values of an annotation are checked against what its type declares.

* `Value.conforms`: whether a value may stand for an element of a type;
* `Class.construct`: an annotation from named values, the elements in the order of their declarations and
  the defaults filled in.

Values under names that the type does not know are refused first, in their own order; then the elements
are taken as declared, each with the value given for it, else with its default.
-/

namespace ClassMetadata

/-! ### conformance -/

mutual

/-- Whether a value has the type of an element.  An empty array has every array type. -/
def Live.Value.conforms : Live.Value Class → ElementType → Bool
  | .literal c, .literal t => c.type == t
  | .classLiteral _, .classLiteral => true
  | .enumConstant c _ _, .enum name => c.name == name
  | .nested a, .nested name => a.type.name == name
  | .array vs, .array t => Live.Value.allConform vs t
  | _, _ => false

def Live.Value.allConform : List (Live.Value Class) → ElementType → Bool
  | [], _ => true
  | v :: vs, t => v.conforms t && Live.Value.allConform vs t

end

theorem Live.Value.allConform_eq_all (vs : List (Live.Value Class)) (t : ElementType) :
    allConform vs t = vs.all fun v => v.conforms t := by
  induction vs with
  | nil => rfl
  | cons v vs ih => simp [allConform, ih]

/-! ### construction -/

/-- Why named values make no annotation of a class. -/
inductive AttributeError
  | notAnAnnotationType (name : String)
  | unknownElement (type element : String)
  | typeMismatch (type element expected found : String)
  | missingElement (type element : String)
  deriving DecidableEq, Repr

def AttributeError.message : AttributeError → String
  | notAnAnnotationType name => name ++ " is not an annotation type"
  | unknownElement type element =>
    "Annotation " ++ type ++ " has no element named " ++ element
  | typeMismatch type element expected found =>
    "Element " ++ type ++ "." ++ element ++ " expects " ++ expected ++ ", found " ++ found
  | missingElement type element => "Annotation " ++ type ++ " is missing element " ++ element

namespace Class

/-- Fills the elements one after the other, `done` being filled already.  A value is used up by the first
element of its name. -/
def fill (type : String) : List (Element Class) → List (String × Live.Value Class) →
    List (String × Live.Value Class) → Except AttributeError (List (String × Live.Value Class))
  | [], _, done => .ok done
  | e :: rest, supplied, done =>
    match (supplied.lookup e.name).or e.default? with
    | none => .error (.missingElement type e.name)
    | some v =>
      if v.conforms e.type then
        fill type rest (Entries.erase e.name supplied) (Entries.insert e.name v done)
      else .error (.typeMismatch type e.name e.type.text v.describe)

/-- An annotation of this class with the given values, of which no two have one name. -/
def construct (c : Class) (values : List (String × Live.Value Class)) :
    Except AttributeError (Live.Annotation Class) :=
  if !c.isAnnotation then .error (.notAnAnnotationType c.name)
  else
    match values.find? fun entry => (c.element? entry.1).isNone with
    | some (name, _) => .error (.unknownElement c.name name)
    | none => (fill c.name c.elements values []).map fun entries => ⟨c, entries⟩

end Class

end ClassMetadata
