import ClassMetadata.Proofs.Signature.Viability

/-!
# Reading by recursive descent

The machine that reads signatures keeps the types that are open on a stack.  Here the same language is read by
functions that call one another, one for each form of a type, with a cursor in the text and a counter of the
argument lists that are open.  What the stack remembers is on the way back from a call here.

* `Place`: the cursor and the counter; `Reading`: something read from a place on, which moves the place also
  when it fails;
* `Descent.reference`: a class, a type variable or an array, with a **budget** for the calls of itself that
  are under way at one time;
* `Descent.wholeSignature`: one call on a reader, which begins where the last one stopped.

Loops are given as many rounds as there are characters; no round passes without reading one.
-/

namespace ClassMetadata

/-- How far a reader has come. -/
structure Place where
  rest : List Char
  /-- the number of bytes read -/
  position : Nat
  /-- the number of argument lists that are open -/
  depth : Nat

/-- Why nothing is read. -/
inductive Failure
  | error (cause : SignatureError)
  /-- the calls go deeper than the budget, or a loop has more rounds than there are characters -/
  | exhausted

/-- Something read from a place on. -/
abbrev Reading := ExceptT Failure (StateM Place)

namespace Descent

variable {α β : Type}

/-- What is read, or why nothing is, with the place behind it. -/
abbrev outcome (read : Reading α) (p : Place) : Except Failure α × Place := read.run.run p

/-! ### characters -/

def fail (cause : SignatureError) : Reading α := throw (.error cause)

/-- The next character, if there is one. -/
def peek : Reading (Option Char) := return (← get).rest.head?

/-- Goes behind the next character. -/
def bump : Reading Unit := modify fun p =>
  match p.rest with
  | [] => p
  | c :: rest => { p with rest := rest, position := p.position + c.utf8Size }

/-- The number of bytes read. -/
def position : Reading Nat := return (← get).position

/-- Goes behind the next character, which should be `wanted`. -/
def expect (wanted : Char) (expectation : Expectation) : Reading Unit := do
  let offset ← position
  match ← peek with
  | none => fail (.unexpectedEnd offset)
  | some c => do
    bump
    if c = wanted then return () else fail (.unexpectedChar c offset expectation)

/-- The characters up to the end of an identifier, of which there is at least one. -/
def identifier : Reading String := do
  let start ← get
  let word := start.rest.takeWhile fun c => !isDelimiter c
  if word.isEmpty then
    if start.rest.isEmpty then fail (.unexpectedEnd start.position)
    else fail (.emptyIdentifier start.position)
  else do
    set { start with
      rest := start.rest.dropWhile fun c => !isDelimiter c
      position := start.position + byteLength word }
    return String.ofList word

/-- The pieces of a path name behind the pieces in `name`. -/
def slashedPieces : Nat → String → Reading String
  | 0, name => return name
  | rounds + 1, name => do
    if (← peek) = some '/' then do
      bump
      let piece ← identifier
      slashedPieces rounds (name ++ "/" ++ piece)
    else return name

/-- The first name of a class, its package in front of it. -/
def pathName : Reading String := do
  let first ← identifier
  slashedPieces (← get).rest.length first

/-! ### types -/

section Types

variable (reference : Reading Signature)

/-- One list deeper, and back again whatever comes of it. -/
def deeper (read : Reading α) : Reading α := fun p =>
  let (result, q) := outcome read { p with depth := p.depth + 1 }
  (result, { q with depth := q.depth - 1 })

/-- The arguments of a list that was opened at an offset, behind those in `before`, the last one first. -/
def argumentList (opened : Nat) : Nat → List TypeArgument → Reading (List TypeArgument)
  | 0, _ => throw .exhausted
  | rounds + 1, before => do
    match ← peek with
    | none => fail (.unexpectedEnd (← position))
    | some c =>
      if c = '>' then do
        bump
        if before.isEmpty then fail (.emptyTypeArguments opened) else return before.reverse
      else if c = '*' then do
        bump
        argumentList opened rounds (.unbounded :: before)
      else if c = '+' then do
        bump
        argumentList opened rounds (.upperBound (← reference) :: before)
      else if c = '-' then do
        bump
        argumentList opened rounds (.lowerBound (← reference) :: before)
      else argumentList opened rounds (.exactly (← reference) :: before)

/-- The argument list behind a name, if there is one. -/
def typeArguments : Reading (List TypeArgument) := do
  let start ← get
  if start.rest.head? = some '<' then
    if start.depth = maxArgumentNesting then fail (.nestingTooDeep start.position)
    else do
      bump
      deeper (argumentList reference start.position start.rest.length [])
  else return []

/-- The segments behind those in `outer`, the last one first, up to the end of the path. -/
def segments : Nat → List Segment → Reading (List Segment)
  | 0, _ => throw .exhausted
  | rounds + 1, outer => do
    let offset ← position
    match ← peek with
    | none => fail (.unexpectedEnd offset)
    | some c => do
      bump
      if c = ';' then return outer.reverse
      else if c = '.' then do
        let name ← identifier
        let arguments ← typeArguments reference
        segments rounds (⟨name, arguments⟩ :: outer)
      else fail (.unexpectedChar c offset .dotOrSemicolon)

/-- The rest of a class behind its `L`. -/
def classType : Reading Signature := do
  let name ← pathName
  let arguments ← typeArguments reference
  return .classType (← segments reference ((← get).rest.length + 1) [⟨name, arguments⟩])

/-- Any type but `void`, with its first character ahead. -/
def javaTypeAt (c : Char) : Reading Signature :=
  match BaseType.ofDescriptor? c with
  | some t => do
    bump
    return .base t
  | none => reference

/-- Any type but `void`. -/
def javaType : Reading Signature := do
  match ← peek with
  | none => fail (.unexpectedEnd (← position))
  | some c => javaTypeAt reference c

end Types

/-- All the brackets that come, if there is room for them; counts them. -/
def brackets : Nat → Reading Nat
  | 0 => do
    if (← peek) = some '[' then fail (.tooManyDimensions (← position)) else return 0
  | room + 1 => do
    if (← peek) = some '[' then do
      bump
      return (← brackets room) + 1
    else return 0

/-- A class, a type variable or an array, with so many calls of this function under way at one time. -/
def reference : Nat → Reading Signature
  | 0 => throw .exhausted
  | budget + 1 => do
    match ← peek with
    | none => fail (.unexpectedEnd (← position))
    | some c =>
      if c = 'L' then do
        bump
        classType (reference budget)
      else if c = 'T' then do
        bump
        let name ← identifier
        expect ';' .semicolonAfterVariable
        return .typeVariable name
      else if c = '[' then do
        let count ← brackets maxDimensions
        return State.wrap count (← javaType (reference budget))
      else fail (.unexpectedChar c (← position) .typeSignature)

/-- Any type, `void` as well. -/
def signature (budget : Nat) : Reading Signature := do
  if (← peek) = some 'V' then do
    bump
    return .void
  else javaType (reference budget)

/-- What is left of a text as one signature. -/
def wholeSignature (budget : Nat) (text : List Char) : Reading Signature := do
  if text.isEmpty then fail .empty
  else do
    let t ← signature budget
    if (← get).rest.isEmpty then return t else fail (.trailingInput (← position))

/-- The budget that is enough for every text: one array and one class inside each argument list and outside
of all of them. -/
def fullBudget : Nat := 2 * (maxArgumentNesting + 1)

end Descent

end ClassMetadata
