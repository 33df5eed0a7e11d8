import ClassMetadata.Signature.Syntax
import ClassMetadata.Signature.Error

/-!
# Reading a signature

One character is enough to know what to do next, so a signature is read by a machine that takes one
character at a time: a `State` holds what has been read of the types that are still open, `State.step`
takes a character or refuses it, `State.run` feeds a text.  There is no recursion on nesting; the types
still open are the frames of a stack.

Two limits are checked on the way: an array has at most `maxDimensions` dimensions, and argument lists
nest at most `maxArgumentNesting` deep.

* `Signature.parse`: a text as one signature;
* `Reader`: a text with a place in it, from which one signature after the other can be asked for; the
  place moves on also when an error comes back.
-/

namespace ClassMetadata

def maxDimensions : Nat := 255

def maxArgumentNesting : Nat := 64

/-- The characters that end an identifier. -/
def isDelimiter (c : Char) : Bool :=
  c == '.' || c == ';' || c == '[' || c == '/' || c == '<' || c == '>' || c == ':'

/-! ### states -/

/-- How a type stands in an argument list. -/
inductive Bound
  | exactly | upper | lower
  deriving DecidableEq, Repr

def Bound.argument : Bound → Signature → TypeArgument
  | exactly, t => .exactly t
  | upper, t => .upperBound t
  | lower, t => .lowerBound t

/-- A type that is open and waits for another one inside it.  Lists that grow while reading are kept
with the last item first. -/
inductive Frame
  /-- an array of which so many brackets are read -/
  | dimensions (count : Nat)
  /-- a class type inside an argument list: the closed segments, the name in front of the list, the
  arguments read, and how the awaited type will stand in the list -/
  | argument (outer : List Segment) (name : String) (before : List TypeArgument) (bound : Bound)

/-- What is being read inside the innermost frame. -/
inductive Point
  /-- nothing read yet -/
  | start
  /-- behind the brackets of an array -/
  | component
  /-- behind the `+` or `-` of an argument -/
  | bounded
  | variableName (letters : List Char)
  /-- the first name of a class path, with the slashes read so far -/
  | pathName (letters : List Char)
  | innerName (outer : List Segment) (letters : List Char)
  /-- inside an argument list, between two arguments -/
  | arguments (outer : List Segment) (name : String) (before : List TypeArgument)
  /-- behind an argument list -/
  | segmentEnd (path : List Segment)
  | done (result : Signature)

structure State where
  stack : List Frame
  point : Point

/-- Why a character is refused. -/
inductive Refusal
  | unexpected (expected : Expectation)
  | emptyIdentifier
  | emptyTypeArguments
  | tooManyDimensions
  | nestingTooDeep
  | trailingInput
  deriving DecidableEq, Repr

/-- Whether a refused character still counts as read. -/
def Refusal.consumes : Refusal → Bool
  | unexpected .typeSignature => false
  | unexpected _ => true
  | emptyTypeArguments => true
  | _ => false

/-! ### one character -/

namespace State

/-- A fresh machine. -/
def initial : State := ⟨[], .start⟩

/-- The number of argument lists around the innermost frame. -/
def nesting : List Frame → Nat
  | [] => 0
  | .dimensions _ :: stack => nesting stack
  | .argument .. :: stack => nesting stack + 1

/-- A type inside so many array brackets. -/
def wrap : Nat → Signature → Signature
  | 0, t => t
  | n + 1, t => .array (wrap n t)

/-- Hands a finished type to the frames that wait for it. -/
def deliver (t : Signature) : List Frame → State
  | [] => ⟨[], .done t⟩
  | .dimensions n :: stack => deliver (wrap n t) stack
  | .argument outer name before bound :: stack =>
    ⟨stack, .arguments outer name (bound.argument t :: before)⟩

/-- The first character of a class, a type variable or an array. -/
def openReference (stack : List Frame) (c : Char) : Except Refusal State :=
  if c = 'L' then .ok ⟨stack, .pathName []⟩
  else if c = 'T' then .ok ⟨stack, .variableName []⟩
  else if c = '[' then .ok ⟨.dimensions 1 :: stack, .component⟩
  else .error (.unexpected .typeSignature)

/-- The first character of any type but `void`. -/
def openType (stack : List Frame) (c : Char) : Except Refusal State :=
  match BaseType.ofDescriptor? c with
  | some t => .ok (deliver (.base t) stack)
  | none => openReference stack c

/-- The character behind a whole segment: `path` ends with the segment. -/
def closeSegment (stack : List Frame) (path : List Segment) (c : Char) : Except Refusal State :=
  if c = ';' then .ok (deliver (.classType path.reverse) stack)
  else if c = '.' then .ok ⟨stack, .innerName path []⟩
  else .error (.unexpected .dotOrSemicolon)

/-- The character behind the name of a segment. -/
def closeName (stack : List Frame) (outer : List Segment) (name : String) (c : Char) :
    Except Refusal State :=
  if c = '<' then
    if nesting stack < maxArgumentNesting then .ok ⟨stack, .arguments outer name []⟩
    else .error .nestingTooDeep
  else closeSegment stack (⟨name, []⟩ :: outer) c

/-- A character between two arguments. -/
def stepArguments (stack : List Frame) (outer : List Segment) (name : String)
    (before : List TypeArgument) (c : Char) : Except Refusal State :=
  let waiting (bound : Bound) := Frame.argument outer name before bound :: stack
  if c = '>' then
    if before.isEmpty then .error .emptyTypeArguments
    else .ok ⟨stack, .segmentEnd (⟨name, before.reverse⟩ :: outer)⟩
  else if c = '*' then .ok ⟨stack, .arguments outer name (.unbounded :: before)⟩
  else if c = '+' then .ok ⟨waiting .upper, .bounded⟩
  else if c = '-' then .ok ⟨waiting .lower, .bounded⟩
  else openReference (waiting .exactly) c

/-- A character behind the brackets of an array. -/
def stepComponent (stack : List Frame) (c : Char) : Except Refusal State :=
  match stack with
  | .dimensions n :: below =>
    if c = '[' then
      if n < maxDimensions then .ok ⟨.dimensions (n + 1) :: below, .component⟩
      else .error .tooManyDimensions
    else openType stack c
  | _ => openType stack c

/-- Takes one character, or says why it cannot stand here. -/
def step (σ : State) (c : Char) : Except Refusal State :=
  match σ.point with
  | .start => if c = 'V' then .ok ⟨σ.stack, .done .void⟩ else openType σ.stack c
  | .component => stepComponent σ.stack c
  | .bounded => openReference σ.stack c
  | .variableName letters =>
    if !isDelimiter c then .ok ⟨σ.stack, .variableName (c :: letters)⟩
    else if letters.isEmpty then .error .emptyIdentifier
    else if c = ';' then .ok (deliver (.typeVariable (String.ofList letters.reverse)) σ.stack)
    else .error (.unexpected .semicolonAfterVariable)
  | .pathName letters =>
    if !isDelimiter c then .ok ⟨σ.stack, .pathName (c :: letters)⟩
    else if letters.isEmpty || letters.head? == some '/' then .error .emptyIdentifier
    else if c = '/' then .ok ⟨σ.stack, .pathName (c :: letters)⟩
    else closeName σ.stack [] (String.ofList letters.reverse) c
  | .innerName outer letters =>
    if !isDelimiter c then .ok ⟨σ.stack, .innerName outer (c :: letters)⟩
    else if letters.isEmpty then .error .emptyIdentifier
    else closeName σ.stack outer (String.ofList letters.reverse) c
  | .arguments outer name before => stepArguments σ.stack outer name before c
  | .segmentEnd path => closeSegment σ.stack path c
  | .done _ => .error .trailingInput

end State

/-! ### a whole text -/

/-- Where a run stops: at the end of the text, or in front of a refused character. -/
inductive Halt
  | ended (state : State)
  | refused (reason : Refusal) (found : Char) (behind : List Char)

/-- Feeds a text to the machine. -/
def State.run : State → List Char → Halt
  | σ, [] => .ended σ
  | σ, c :: cs =>
    match σ.step c with
    | .ok σ' => σ'.run cs
    | .error reason => .refused reason c cs

theorem State.run_append (σ : State) (u v : List Char) :
    σ.run (u ++ v) =
      match σ.run u with
      | .ended σ' => σ'.run v
      | .refused reason c cs => .refused reason c (cs ++ v) := by
  induction u generalizing σ with
  | nil => rfl
  | cons c u ih =>
    simp only [List.cons_append, State.run]
    cases σ.step c with
    | ok σ' => exact ih σ'
    | error _ => rfl

/-! ### reading on -/

/-- The number of bytes of a text in UTF-8. -/
def byteLength : List Char → Nat
  | [] => 0
  | c :: cs => c.utf8Size + byteLength cs

/-- A text and the part of it that is not yet read. -/
structure Reader where
  text : List Char
  rest : List Char

namespace Reader

/-- A reader at the beginning of a text. -/
def ofString (text : String) : Reader := ⟨text.toList, text.toList⟩

/-- The offset of a suffix of the text. -/
def offsetOf (r : Reader) (suffix : List Char) : Nat := byteLength r.text - byteLength suffix

/-- The number of bytes read. -/
def position (r : Reader) : Nat := r.offsetOf r.rest

/-- The error for a character refused with `unread` in front of the reader. -/
def errorAt (r : Reader) (reason : Refusal) (found : Char) (unread : List Char) : SignatureError :=
  let offset := r.offsetOf unread
  match reason with
  | .unexpected expected => .unexpectedChar found offset expected
  | .emptyIdentifier => .emptyIdentifier offset
  | .emptyTypeArguments => .emptyTypeArguments (offset - 1)
  | .tooManyDimensions => .tooManyDimensions offset
  | .nestingTooDeep => .nestingTooDeep offset
  | .trailingInput => .trailingInput offset

/-- Reads all the rest as one signature.  On an error the reader stays where reading stopped. -/
def next (r : Reader) : Except SignatureError Signature × Reader :=
  if r.text.isEmpty then (.error .empty, r)
  else
    match State.initial.run r.rest with
    | .ended ⟨_, .done t⟩ => (.ok t, { r with rest := [] })
    | .ended _ => (.error (.unexpectedEnd (byteLength r.text)), { r with rest := [] })
    | .refused reason found behind =>
      (.error (r.errorAt reason found (found :: behind)),
        { r with rest := if reason.consumes then behind else found :: behind })

/-- What `n` successive calls answer, each with the position behind it. -/
def nexts : Nat → Reader → List (Except SignatureError Signature × Nat)
  | 0, _ => []
  | n + 1, r =>
    let (answer, r') := r.next
    (answer, r'.position) :: nexts n r'

end Reader

/-- Reads a text as one signature. -/
def Signature.parse (text : String) : Except SignatureError Signature := (Reader.ofString text).next.1

end ClassMetadata
