/-!
# Constant pools

The constants that the structures of a class file refer to by index.  Slot 0 is never used, and a long or
double constant takes two slots, of which the second one stays empty.  A pool has at most 65535 slots, so
that every index fits two bytes.
-/

namespace ClassMetadata.ClassFile

inductive ConstantKind
  | utf8 | integer | float | long | double
  deriving DecidableEq, Repr

def ConstantKind.word : ConstantKind → String
  | utf8 => "utf8" | integer => "integer" | float => "float" | long => "long" | double => "double"

/-- A constant; floating-point numbers are given by their bits. -/
inductive Constant
  | utf8 (text : String)
  | integer (value : Int32)
  | float (bits : UInt32)
  | long (value : Int64)
  | double (bits : UInt64)
  deriving DecidableEq

namespace Constant

def kind : Constant → ConstantKind
  | utf8 _ => .utf8
  | integer _ => .integer
  | float _ => .float
  | long _ => .long
  | double _ => .double

def isWide : Constant → Bool
  | long _ | double _ => true
  | _ => false

/-- How many slots the constant takes. -/
def width (c : Constant) : Nat := if c.isWide then 2 else 1

theorem one_le_width (c : Constant) : 1 ≤ c.width := by
  unfold width
  split <;> omega

def utf8? : Constant → Option String
  | utf8 s => some s
  | _ => none

def integer? : Constant → Option Int32
  | integer v => some v
  | _ => none

def float? : Constant → Option UInt32
  | float bits => some bits
  | _ => none

def long? : Constant → Option Int64
  | long v => some v
  | _ => none

def double? : Constant → Option UInt64
  | double bits => some bits
  | _ => none

end Constant

/-- The slots of a pool, slot 0 included. -/
structure ConstantPool where
  slots : Array (Option Constant)
  deriving DecidableEq

namespace ConstantPool

def maxSlots : Nat := 65535

/-- A pool without constants. -/
def empty : ConstantPool := ⟨#[none]⟩

/-- The number of slots, slot 0 included. -/
def size (p : ConstantPool) : Nat := p.slots.size

def isEmpty (p : ConstantPool) : Bool := decide (p.size ≤ 1)

/-- The constant at an index. -/
def get? (p : ConstantPool) (index : Nat) : Option Constant := (p.slots[index]?).join

/-- A slot as an index, if the number fits two bytes. -/
def index? (slot : Nat) : Option Nat := if slot < 65536 then some slot else none

/-- Adds a constant and gives its index, or leaves the pool alone if the constant does not fit. -/
def push (p : ConstantPool) (c : Constant) : ConstantPool × Option Nat :=
  if maxSlots < p.size + c.width then (p, none)
  else
    match index? p.size with
    | none => (p, none)
    | some index =>
      let slots := p.slots.push (some c)
      (⟨if c.isWide then slots.push none else slots⟩, some index)

/-- Adds constants one after the other. -/
def pushAll (p : ConstantPool) (cs : List Constant) : ConstantPool := cs.foldl (fun p c => (p.push c).1) p

/-- The index of a constant that fits is the number of slots in front of it. -/
theorem index?_size {p : ConstantPool} {c : Constant} (h : ¬ maxSlots < p.size + c.width) :
    index? p.size = some p.size := by
  have hwidth : 1 ≤ c.width := c.one_le_width
  have hsize : p.size < 65536 := by
    unfold maxSlots at h
    omega
  exact if_pos hsize

theorem size_push (p : ConstantPool) (c : Constant) :
    (p.push c).1.size = if maxSlots < p.size + c.width then p.size else p.size + c.width := by
  unfold push
  split
  · rfl
  · rename_i hfits
    rw [index?_size hfits]
    cases h : c.isWide <;> simp [size, Constant.width, h]

end ConstantPool

end ClassMetadata.ClassFile
