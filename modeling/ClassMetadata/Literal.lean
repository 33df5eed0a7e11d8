import ClassMetadata.Signature.Syntax
import ClassMetadata.Decimal.Shortest
import ClassMetadata.Text.Quoted

/-!
# Literals

The constants that are final as they stand in a class file: numbers, booleans, UTF-16 code units and
strings.  Floating-point numbers are kept as bits, so that two literals are equal exactly if they have
the same bits; `sameNumber` is the numerical comparison instead.
-/

namespace ClassMetadata

inductive Literal
  | byte (value : Int8)
  | short (value : Int16)
  | int (value : Int32)
  | long (value : Int64)
  | float (bits : UInt32)
  | double (bits : UInt64)
  | boolean (value : Bool)
  | char (unit : UInt16)
  | string (value : String)
  deriving DecidableEq

/-- The type of a literal: a base type, or a string. -/
inductive LiteralType
  | base (type : BaseType)
  | string
  deriving DecidableEq, Repr

namespace Literal

def type : Literal → LiteralType
  | byte _ => .base .byte
  | short _ => .base .short
  | int _ => .base .int
  | long _ => .base .long
  | float _ => .base .float
  | double _ => .base .double
  | boolean _ => .base .boolean
  | char _ => .base .char
  | string _ => .string

/-- Equality with floating-point numbers compared as numbers: zeros of both signs are the same, and what
is no number is not the same as itself. -/
def sameNumber : Literal → Literal → Bool
  | float a, float b => BinaryFormat.single.sameNumber a.toNat b.toNat
  | double a, double b => BinaryFormat.double.sameNumber a.toNat b.toNat
  | a, b => a == b

/-- A literal as it would be written in source text. -/
def text : Literal → String
  | byte v => "(byte)" ++ toString v.toInt
  | short v => "(short)" ++ toString v.toInt
  | int v => toString v.toInt
  | long v => toString v.toInt ++ "L"
  | float bits => BinaryFormat.single.text bits.toNat ++ "f"
  | double bits => BinaryFormat.double.text bits.toNat
  | boolean v => if v then "true" else "false"
  | char unit => quoteUnit unit.toNat
  | string s => quoteString s

end Literal

end ClassMetadata
