import ClassMetadata.ClassFile.ConstantPool
import ClassMetadata.Deferred.Shape

/-!
# Annotations in a class file

The bytes of an annotation are the index of its type, a count, and as many pairs of the index of a name
and a value.  A value is a tag and what the tag asks for: the index of a constant, two indices for an enum
constant, an annotation, or a count and as many values.  Numbers have two bytes, the higher one first.

* `decodeNode`, `decodeNodes`: one annotation, or a count and as many annotations, as the
  whole of some bytes;
* `DecodeError`: what can be wrong, with its place.

Annotations and arrays nest at most `maxNesting` deep below an annotation; `elementValue` recurses on the
levels that are left.
-/

namespace ClassMetadata.ClassFile

open Deferred

def maxNesting : Nat := 256

/-! ### errors -/

/-- What is wrong with the bytes of an annotation.  While reading, a place is the bytes from there on; in
the end it is an offset. -/
inductive DecodeError (place : Type)
  | unexpectedEnd (here : place)
  | badConstant (index : UInt16) (expected : ConstantKind)
  | unknownTag (tag : UInt8) (here : place)
  | arrayShape (here : place) (cause : ArrayError)
  | tooDeep (here : place)
  | trailingBytes (here : place)
  deriving DecidableEq, Repr

namespace DecodeError

/-- The same error with its place named otherwise. -/
def mapPlace {α β : Type} (f : α → β) : DecodeError α → DecodeError β
  | unexpectedEnd here => unexpectedEnd (f here)
  | badConstant index expected => badConstant index expected
  | unknownTag tag here => unknownTag tag (f here)
  | arrayShape here cause => arrayShape (f here) cause
  | tooDeep here => tooDeep (f here)
  | trailingBytes here => trailingBytes (f here)

def message : DecodeError Nat → String
  | unexpectedEnd offset => "Unexpected end of annotation data at offset " ++ toString offset
  | badConstant index expected =>
    "Constant pool entry " ++ toString index.toNat ++ " is not a valid " ++ expected.word ++ " constant"
  | unknownTag tag offset =>
    "Unknown element value tag 0x" ++ hexPadded 2 tag.toNat ++ " at offset " ++ toString offset
  | arrayShape offset cause => "Malformed array at offset " ++ toString offset ++ ": " ++ cause.message
  | tooDeep offset => "Annotation nesting too deep at offset " ++ toString offset
  | trailingBytes offset => "Trailing bytes after annotation data at offset " ++ toString offset

end DecodeError

/-! ### reading -/

/-- Reading from the front of some bytes. -/
abbrev Reading (α : Type) := StateT (List UInt8) (Except (DecodeError (List UInt8))) α

/-- One byte. -/
def byte : Reading UInt8 := fun bytes =>
  match bytes with
  | b :: rest => .ok (b, rest)
  | [] => .error (.unexpectedEnd [])

/-- A number of two bytes. -/
def u2 : Reading UInt16 := fun bytes =>
  match bytes with
  | high :: low :: rest => .ok (UInt16.ofNat (high.toNat * 256 + low.toNat), rest)
  | short => .error (.unexpectedEnd short)

/-- So many things, one after the other. -/
def times {α : Type} (read : Reading α) : Nat → Reading (List α)
  | 0 => pure []
  | n + 1 => do
    let a ← read
    return a :: (← times read n)

section Pool

variable (pool : ConstantPool)

/-- The index of a constant of one kind; gives the constant. -/
def constant {α : Type} (kind : ConstantKind) (pick : Constant → Option α) : Reading α := do
  let index ← u2
  match (pool.get? index.toNat).bind pick with
  | some a => pure a
  | none => throw (.badConstant index kind)

def utf8 : Reading String := constant pool .utf8 Constant.utf8?

def integer : Reading Int32 := constant pool .integer Constant.integer?

/-- A literal of a base type.  The types narrower than an integer take its lowest bits, and everything
but zero is true. -/
def baseLiteral : BaseType → Reading Literal
  | .byte => do return .byte (← integer pool).toInt8
  | .char => do return .char (← integer pool).toUInt32.toUInt16
  | .short => do return .short (← integer pool).toInt16
  | .boolean => do return .boolean ((← integer pool) != 0)
  | .int => do return .int (← integer pool)
  | .long => do return .long (← constant pool .long Constant.long?)
  | .float => do return .float (← constant pool .float Constant.float?)
  | .double => do return .double (← constant pool .double Constant.double?)

/-- What stands in front of a value. -/
inductive Tag
  | base (type : BaseType)
  | string
  | enum
  | classLiteral
  | nested
  | array
  deriving DecidableEq, Repr

def Tag.ofByte? (b : UInt8) : Option Tag :=
  let c := Char.ofNat b.toNat
  match BaseType.ofDescriptor? c with
  | some t => some (.base t)
  | none =>
    match c with
    | 's' => some .string
    | 'e' => some .enum
    | 'c' => some .classLiteral
    | '@' => some .nested
    | '[' => some .array
    | _ => none

/-- An annotation whose values are read by `element`. -/
def annotationWith (element : Reading Value) : Reading Node := do
  let type ← utf8 pool
  let count ← u2
  let pairs ← times (do return (← utf8 pool, ← element)) count.toNat
  return .ofPairs type pairs

/-- An array whose elements are read by `element`, its tag standing at `here`. -/
def arrayWith (here : List UInt8) (element : Reading Value) : Reading Value := do
  let count ← u2
  match Value.checkedArray (← times element count.toNat) with
  | .ok array => pure array
  | .error cause => throw (.arrayShape here cause)

/-- A value; `inner` reads the values one level deeper, unless that is too deep. -/
def elementWith (inner : Option (Reading Value)) : Reading Value := do
  let here ← get
  let tag ← byte
  match Tag.ofByte? tag, inner with
  | none, _ => throw (.unknownTag tag here)
  | some (.base t), _ => do return .literal (← baseLiteral pool t)
  | some .string, _ => do return .literal (.string (← utf8 pool))
  | some .enum, _ => do return .enumConstant (← utf8 pool) (← utf8 pool)
  | some .classLiteral, _ => do return .classLiteral (← utf8 pool)
  | some .nested, some element => do return .nested (← annotationWith pool element)
  | some .array, some element => arrayWith here element
  | some _, none => throw (.tooDeep here)

/-- A value with so many levels left below it. -/
def elementValue : Nat → Reading Value
  | 0 => elementWith pool none
  | levels + 1 => elementWith pool (some (elementValue levels))

/-- One annotation. -/
def node : Reading Node := annotationWith pool (elementValue pool maxNesting)

/-- A count and as many annotations. -/
def nodes : Reading (List Node) := do
  let count ← u2
  times (node pool) count.toNat

end Pool

/-! ### whole structures -/

/-- What `read` makes of all of some bytes. -/
def decodeWith {α : Type} (read : Reading α) (bytes : List UInt8) : Except (DecodeError Nat) α :=
  let offsetOf (rest : List UInt8) := bytes.length - rest.length
  match read bytes with
  | .ok (a, []) => .ok a
  | .ok (_, rest) => .error (.trailingBytes (offsetOf rest))
  | .error e => .error (e.mapPlace offsetOf)

def decodeNode (pool : ConstantPool) (bytes : List UInt8) : Except (DecodeError Nat) Node :=
  decodeWith (node pool) bytes

def decodeNodes (pool : ConstantPool) (bytes : List UInt8) : Except (DecodeError Nat) (List Node) :=
  decodeWith (nodes pool) bytes

end ClassMetadata.ClassFile
