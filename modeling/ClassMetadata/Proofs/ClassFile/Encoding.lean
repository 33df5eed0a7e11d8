import ClassMetadata.ClassFile.Annotations
import ClassMetadata.Proofs.Entries

/-!
# The bytes of an annotation

What a class file writes down for an annotation, said from the side of the one who writes: a source has
pairs of a name and a value in which a name may come again, and every part of it has bytes.

* `SourceValue`, `SourceNode`: the trees that are written;
* `SourceNode.Encodes pool a bytes`: **the grammar**: `bytes` are `a`, its texts and numbers being
  constants of `pool`;
* `Stored l c`: the literal `l` is written as the constant `c`.  The types narrower than an integer only
  look at its lowest bits, which is said with remainders here;
* `nesting`, `ArraysAccepted`: how deep annotations and arrays stand in one another, and whether the
  elements of every array are of one shape;
* `SourceNode.node`: the deferred annotation that a source means, names collapsed at every level.
-/

namespace ClassMetadata.ClassFile

open Deferred

/-! ### sources -/

mutual

inductive SourceValue
  | literal (value : Literal)
  | enumConstant (signature constant : String)
  | classLiteral (signature : String)
  | nested (node : SourceNode)
  | array (elements : List SourceValue)

/-- A type and pairs of a name and a value, as they are written. -/
structure SourceNode where
  type : String
  pairs : List (String × SourceValue)

end

/-! ### the parts of an encoding -/

/-- The byte of a tag. -/
def byteOf (letter : Char) : UInt8 := UInt8.ofNat letter.toNat

/-- The two bytes of a number. -/
def bigEndian (n : UInt16) : List UInt8 := [UInt8.ofNat (n.toNat / 256), UInt8.ofNat (n.toNat % 256)]

/-- The bytes are the index of a constant. -/
def Refers (pool : ConstantPool) (c : Constant) (bytes : List UInt8) : Prop :=
  ∃ index : UInt16, bytes = bigEndian index ∧ pool.get? index.toNat = some c

/-- The letter in front of a literal. -/
def letterOf : LiteralType → Char
  | .base t => t.descriptor
  | .string => 's'

/-- How a literal is written as a constant. -/
def Stored : Literal → Constant → Prop
  | .byte v, .integer w => v.toInt = w.toInt.bmod 256
  | .short v, .integer w => v.toInt = w.toInt.bmod 65536
  | .char u, .integer w => (u.toNat : Int) = w.toInt % 65536
  | .boolean b, .integer w => b = true ↔ w.toInt ≠ 0
  | .int v, .integer w => v = w
  | .long v, .long w => v = w
  | .float x, .float y => x = y
  | .double x, .double y => x = y
  | .string s, .utf8 t => s = t
  | _, _ => False

/-! ### encodings -/

mutual

/-- The bytes are a value. -/
def SourceValue.Encodes (pool : ConstantPool) : SourceValue → List UInt8 → Prop
  | .literal l, bytes =>
    ∃ c index, bytes = byteOf (letterOf l.type) :: index ∧ Stored l c ∧ Refers pool c index
  | .enumConstant signature constant, bytes =>
    ∃ first second, bytes = byteOf 'e' :: (first ++ second) ∧
      Refers pool (.utf8 signature) first ∧ Refers pool (.utf8 constant) second
  | .classLiteral signature, bytes =>
    ∃ index, bytes = byteOf 'c' :: index ∧ Refers pool (.utf8 signature) index
  | .nested a, bytes => ∃ body, bytes = byteOf '@' :: body ∧ a.Encodes pool body
  | .array vs, bytes =>
    ∃ (count : UInt16) (body : List UInt8), bytes = byteOf '[' :: (bigEndian count ++ body) ∧
      count.toNat = vs.length ∧ SourceValue.AllEncode pool vs body

/-- The bytes are values one after the other. -/
def SourceValue.AllEncode (pool : ConstantPool) : List SourceValue → List UInt8 → Prop
  | [], bytes => bytes = []
  | v :: vs, bytes =>
    ∃ front back, bytes = front ++ back ∧ v.Encodes pool front ∧ SourceValue.AllEncode pool vs back

/-- The bytes are an annotation. -/
def SourceNode.Encodes (pool : ConstantPool) : SourceNode → List UInt8 → Prop
  | ⟨type, pairs⟩, bytes =>
    ∃ (index : List UInt8) (count : UInt16) (body : List UInt8),
      bytes = index ++ (bigEndian count ++ body) ∧ Refers pool (.utf8 type) index ∧
        count.toNat = pairs.length ∧ SourceNode.PairsEncode pool pairs body

/-- The bytes are pairs of a name and a value one after the other. -/
def SourceNode.PairsEncode (pool : ConstantPool) : List (String × SourceValue) → List UInt8 → Prop
  | [], bytes => bytes = []
  | (name, v) :: pairs, bytes =>
    ∃ index front back, bytes = index ++ front ++ back ∧ Refers pool (.utf8 name) index ∧
      v.Encodes pool front ∧ SourceNode.PairsEncode pool pairs back

end

/-! ### nesting -/

mutual

/-- How many annotations and arrays stand in one another at most, the value itself included. -/
def SourceValue.nesting : SourceValue → Nat
  | .nested a => a.nesting + 1
  | .array vs => SourceValue.nestingAll vs + 1
  | .literal _ | .enumConstant .. | .classLiteral _ => 0

def SourceValue.nestingAll : List SourceValue → Nat
  | [] => 0
  | v :: vs => max v.nesting (SourceValue.nestingAll vs)

/-- How deep annotations and arrays nest below the annotation. -/
def SourceNode.nesting : SourceNode → Nat
  | ⟨_, pairs⟩ => SourceNode.pairsNesting pairs

def SourceNode.pairsNesting : List (String × SourceValue) → Nat
  | [] => 0
  | (_, v) :: pairs => max v.nesting (SourceNode.pairsNesting pairs)

end

/-! ### the tree that is meant -/

mutual

def SourceValue.value : SourceValue → Value
  | .literal l => .literal l
  | .enumConstant signature constant => .enumConstant signature constant
  | .classLiteral signature => .classLiteral signature
  | .nested a => .nested a.node
  | .array vs => .array (SourceValue.values vs)

def SourceValue.values : List SourceValue → List Value
  | [] => []
  | v :: vs => v.value :: SourceValue.values vs

/-- The annotation with every repeated name at its first place and with its last value. -/
def SourceNode.node : SourceNode → Node
  | ⟨type, pairs⟩ => .descriptor type (Entries.collapse (SourceNode.namedValues pairs))

def SourceNode.namedValues : List (String × SourceValue) → List (String × Value)
  | [] => []
  | (name, v) :: pairs => (name, v.value) :: SourceNode.namedValues pairs

end

/-! ### arrays -/

mutual

/-- Every array in the value has elements of one shape. -/
def SourceValue.ArraysAccepted : SourceValue → Prop
  | .nested a => a.ArraysAccepted
  | .array vs =>
    (∃ array, Value.checkedArray (SourceValue.values vs) = .ok array) ∧ SourceValue.AllArraysAccepted vs
  | .literal _ | .enumConstant .. | .classLiteral _ => True

def SourceValue.AllArraysAccepted : List SourceValue → Prop
  | [] => True
  | v :: vs => v.ArraysAccepted ∧ SourceValue.AllArraysAccepted vs

/-- Every array in the annotation has elements of one shape, also one whose name comes again. -/
def SourceNode.ArraysAccepted : SourceNode → Prop
  | ⟨_, pairs⟩ => SourceNode.PairsArraysAccepted pairs

def SourceNode.PairsArraysAccepted : List (String × SourceValue) → Prop
  | [] => True
  | (_, v) :: pairs => v.ArraysAccepted ∧ SourceNode.PairsArraysAccepted pairs

end

end ClassMetadata.ClassFile
