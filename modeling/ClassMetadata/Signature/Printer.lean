import ClassMetadata.Signature.Syntax

/-!
# The text of a signature

* a base type is its letter, `void` is `V`, an array puts `[` in front of its component;
* a type variable is `T`, its name and `;`;
* a class is `L`, its segments separated by `.`, and `;`, a segment being a name and, when it has type
  arguments, the arguments between `<` and `>`;
* an argument is `*`, or a type that may have `+` or `-` in front.

Printing is defined for every tree, also for those that no text describes (an empty class path, a name
with a delimiter in it).
-/

namespace ClassMetadata

mutual

def Signature.chars : Signature → List Char
  | .base t => [t.descriptor]
  | .void => ['V']
  | .classType [] => ['L', ';']
  | .classType (segment :: path) => 'L' :: (Segment.chars segment ++ Segment.innerChars path ++ [';'])
  | .array component => '[' :: component.chars
  | .typeVariable name => 'T' :: (name.toList ++ [';'])

def Segment.chars : Segment → List Char
  | ⟨name, arguments⟩ => name.toList ++ TypeArgument.listChars arguments

/-- The segments behind the first, each with its dot. -/
def Segment.innerChars : List Segment → List Char
  | [] => []
  | segment :: path => '.' :: (Segment.chars segment ++ Segment.innerChars path)

def TypeArgument.chars : TypeArgument → List Char
  | .unbounded => ['*']
  | .exactly t => t.chars
  | .upperBound t => '+' :: t.chars
  | .lowerBound t => '-' :: t.chars

/-- An argument list with its brackets; nothing for no arguments. -/
def TypeArgument.listChars : List TypeArgument → List Char
  | [] => []
  | argument :: rest => '<' :: (argument.chars ++ TypeArgument.tailChars rest ++ ['>'])

def TypeArgument.tailChars : List TypeArgument → List Char
  | [] => []
  | argument :: rest => argument.chars ++ TypeArgument.tailChars rest

end

/-- The text of a signature. -/
def Signature.render (t : Signature) : String := String.ofList t.chars

theorem TypeArgument.tailChars_append (as bs : List TypeArgument) :
    tailChars (as ++ bs) = tailChars as ++ tailChars bs := by
  induction as with
  | nil => simp [tailChars]
  | cons a as ih => simp [tailChars, ih]

theorem Segment.innerChars_append (p q : List Segment) :
    innerChars (p ++ q) = innerChars p ++ innerChars q := by
  induction p with
  | nil => simp [innerChars]
  | cons s p ih => simp [innerChars, ih]

end ClassMetadata
