/-!
# Binary floating point by its bits

A `BinaryFormat` says how the bits of a floating-point number are divided; the functions here read a bit
pattern as a sign and a magnitude.  A finite magnitude is a natural number times a power of two.

* `BinaryFormat.magnitude`: not a number, infinite, or `m * 2 ^ e`;
* `BinaryFormat.sameNumber`: numerical equality of two patterns: the two zeros are equal, and a pattern
  that is no number equals nothing.
-/

namespace ClassMetadata

/-- The widths of the fraction and of the exponent; the sign is the bit in front of both. -/
structure BinaryFormat where
  fractionBits : Nat
  exponentBits : Nat

namespace BinaryFormat

/-- 32 bits in all. -/
def single : BinaryFormat := ⟨23, 8⟩

/-- 64 bits in all. -/
def double : BinaryFormat := ⟨52, 11⟩

/-- The size of a number without its sign. -/
inductive Magnitude
  | notANumber
  | infinite
  /-- `m * 2 ^ e`; the next smaller number is only half as far away as the next larger one when `lowest`
  holds, that is at a power of two -/
  | finite (m : Nat) (e : Int) (lowest : Bool)
  deriving DecidableEq, Repr

variable (f : BinaryFormat)

def fraction (bits : Nat) : Nat := bits % (1 <<< f.fractionBits)

def exponent (bits : Nat) : Nat := (bits >>> f.fractionBits) % (1 <<< f.exponentBits)

def isNegative (bits : Nat) : Bool := bits.testBit (f.fractionBits + f.exponentBits)

/-- The exponent with all bits set, that of numbers that are not finite. -/
def topExponent : Nat := (1 <<< f.exponentBits) - 1

def isNaN (bits : Nat) : Bool := f.exponent bits == f.topExponent && f.fraction bits != 0

def isZero (bits : Nat) : Bool := f.exponent bits == 0 && f.fraction bits == 0

/-- Numerical equality. -/
def sameNumber (a b : Nat) : Bool :=
  !f.isNaN a && !f.isNaN b && (a == b || (f.isZero a && f.isZero b))

/-- The exponent of the last place of the smallest numbers. -/
def leastExponent : Int := 2 - Int.ofNat ((1 <<< (f.exponentBits - 1)) + f.fractionBits)

def magnitude (bits : Nat) : Magnitude :=
  let e := f.exponent bits
  let m := f.fraction bits
  if e = f.topExponent then if m = 0 then .infinite else .notANumber
  else if e = 0 then .finite m f.leastExponent false
  else .finite ((1 <<< f.fractionBits) + m) (f.leastExponent + Int.ofNat (e - 1)) (m == 0 && decide (1 < e))

theorem sameNumber_comm (a b : Nat) : f.sameNumber a b = f.sameNumber b a := by
  unfold sameNumber
  rw [Bool.and_comm (!f.isNaN a), Bool.and_comm (f.isZero a), Bool.beq_comm]

theorem sameNumber_self (a : Nat) : f.sameNumber a a = !f.isNaN a := by
  simp [sameNumber]

end BinaryFormat

end ClassMetadata
