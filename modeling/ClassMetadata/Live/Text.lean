import ClassMetadata.Live.Class
import ClassMetadata.Text.Cut

/-!
# The text of live things

Two texts are given of a value: `Value.text`, the value as it would be written in source, and
`Value.describe`, the type that the value shows to a diagnostic.  A type is written with its arguments,
the type around an inner class in front of it.
-/

namespace ClassMetadata

/-! ### types -/

/-- What stands behind the last `$` of a binary name; all of it if there is none. -/
def simpleName (binaryName : String) : String :=
  match cutAtLast '$' binaryName.toList with
  | some (_, back) => String.ofList back
  | none => binaryName

mutual

def ResolvedType.text : ResolvedType Class → String
  | .primitive t => t.keyword
  | .void => "void"
  | .classType c => c.name
  | .array component => component.text ++ "[]"
  | .parameterized raw arguments owner =>
    ResolvedType.nameBehind owner raw ++
      (if arguments.isEmpty then "" else "<" ++ ", ".intercalate (ResolvedType.texts arguments) ++ ">")
  | .typeVariable name _ => name
  | .wildcard upper lower =>
    if !lower.isEmpty then "? super " ++ " & ".intercalate (ResolvedType.texts lower)
    else if !upper.isEmpty then "? extends " ++ " & ".intercalate (ResolvedType.texts upper)
    else "?"

/-- The name of a class behind the type around it. -/
def ResolvedType.nameBehind : Option (ResolvedType Class) → Class → String
  | none, raw => raw.name
  | some owner, raw => owner.text ++ "$" ++ simpleName raw.name

def ResolvedType.texts : List (ResolvedType Class) → List String
  | [] => []
  | t :: ts => t.text :: ResolvedType.texts ts

end

def LiteralType.text : LiteralType → String
  | base t => t.keyword
  | string => "java.lang.String"

def ElementType.text : ElementType → String
  | .literal t => t.text
  | .classLiteral => "java.lang.Class"
  | .enum name => name
  | .nested name => name
  | .array component => component.text ++ "[]"

/-! ### values -/

namespace Live

/-- The type of a value for a diagnostic: an array shows that of its first element. -/
def Value.describe : Value Class → String
  | .literal c => c.type.text
  | .classLiteral _ => "java.lang.Class"
  | .enumConstant c _ _ => c.name
  | .nested a => a.type.name
  | .array [] => "[]"
  | .array (v :: _) => v.describe ++ "[]"

mutual

def Value.text : Value Class → String
  | .literal c => c.text
  | .classLiteral t => t.text ++ ".class"
  | .enumConstant c name _ => c.name ++ "." ++ name
  | .nested a => a.text
  | .array vs => "\x7b" ++ ", ".intercalate (Value.texts vs) ++ "\x7d"

def Annotation.text : Annotation Class → String
  | ⟨c, entries⟩ => "@" ++ c.name ++ "(" ++ ", ".intercalate (Value.entryTexts entries) ++ ")"

def Value.texts : List (Value Class) → List String
  | [] => []
  | v :: vs => v.text :: Value.texts vs

def Value.entryTexts : List (String × Value Class) → List String
  | [] => []
  | (name, v) :: rest => (name ++ "=" ++ v.text) :: Value.entryTexts rest

end

end Live

end ClassMetadata
