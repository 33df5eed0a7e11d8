import ClassMetadata.Unicode.Letter
import ClassMetadata.Unicode.Number
import ClassMetadata.Text.Cut

/-!
# Qualified names

The names of modules, packages, services and classes: identifiers separated by dots.  An identifier
starts with a letter, `_` or `$`, continues with those and numbers, and is no reserved word.

* `isQualifiedName`: the shape of the whole name is checked in one scan, the reserved words piece by
  piece;
* `packageOf?`: what stands in front of the last dot.
-/

namespace ClassMetadata

open Unicode

/-- The words that are no identifiers. -/
def reservedWords : List String :=
  ["abstract", "assert", "boolean", "break", "byte", "case", "catch", "char", "class", "const",
   "continue", "default", "do", "double", "else", "enum", "extends", "final", "finally", "float", "for",
   "goto", "if", "implements", "import", "instanceof", "int", "interface", "long", "native", "new",
   "package", "private", "protected", "public", "return", "short", "static", "strictfp", "super",
   "switch", "synchronized", "this", "throw", "throws", "transient", "try", "void", "volatile", "while",
   "true", "false", "null", "_"]

def isIdentifierStart (c : Char) : Bool := isLetter c || c == '_' || c == '$'

def isIdentifierPart (c : Char) : Bool := isIdentifierStart c || isNumber c

/-- Whether a text is identifiers separated by single dots; `inside` says that the first one has
begun. -/
def hasNameShape (inside : Bool) : List Char → Bool
  | [] => inside
  | c :: cs =>
    if inside then
      if isIdentifierPart c then hasNameShape true cs else c == '.' && hasNameShape false cs
    else isIdentifierStart c && hasNameShape true cs

/-- The pieces between the dots of a text; a text without a dot is one piece. -/
def pieces : List Char → List (List Char)
  | [] => [[]]
  | c :: cs =>
    if c = '.' then [] :: pieces cs
    else
      match pieces cs with
      | [] => [[c]]
      | piece :: rest => (c :: piece) :: rest

def isReserved (piece : List Char) : Bool := reservedWords.contains (String.ofList piece)

/-- Whether a text is a name of a module, a service or a class. -/
def isQualifiedName (name : String) : Bool :=
  hasNameShape false name.toList && (pieces name.toList).all fun piece => !isReserved piece

/-- Packages are named by the same rules. -/
def isPackageName (name : String) : Bool := isQualifiedName name

/-- The package of a qualified class name, if it has one. -/
def packageOf? (name : String) : Option String :=
  (cutAtLast '.' name.toList).map fun (front, _) => String.ofList front

end ClassMetadata
