import ClassMetadata.Decimal.Binary

/-!
# The shortest decimal of a floating-point number

Every real number near enough to a floating-point number is read back as that number.  Of the decimals
that are, the one with the fewest digits is written; of several with as few digits the nearest; and of
two equally near ones the larger.

* `Interval`: the reals that are read back as a given number, as fractions of one denominator;
* `Interval.shortest`: the digits and the power of ten of the decimal to write;
* `BinaryFormat.text`: that decimal without an exponent, however long it becomes, and the words for what
  is not a finite number.
-/

namespace ClassMetadata

/-- The reals between `low` and `high` around `value`, all three over `den`; the ends belong to the
interval when it is `closed`. -/
structure Interval where
  low : Nat
  value : Nat
  high : Nat
  den : Nat
  closed : Bool

namespace Interval

/-- The reals nearer to `m * 2 ^ e` than to its neighbours; ends count when `m` is even. -/
def around (m : Nat) (e : Int) (lowest : Bool) : Interval :=
  let unit := 1 <<< (e - 2).toNat
  { low := (4 * m - if lowest then 1 else 2) * unit
    value := 4 * m * unit
    high := (4 * m + 2) * unit
    den := 1 <<< (2 - e).toNat
    closed := m % 2 == 0 }

/-- Whether the fraction `n / den` lies in the interval, all numbers multiplied by `scale`. -/
def holds (i : Interval) (scale n : Nat) : Bool :=
  if i.closed then decide (i.low * scale ≤ n) && decide (n ≤ i.high * scale)
  else decide (i.low * scale < n) && decide (n < i.high * scale)

/-- `10 ^ k`, or one if `k` is negative. -/
def tens (k : Int) : Nat := Nat.pow 10 k.toNat

/-- The multiple of `10 ^ k` to write, as its factor, if one lies in the interval: the nearer neighbour
of the value, the upper one when both are equally near. -/
def onGrid (i : Interval) (k : Int) : Option Nat :=
  let scale := tens (-k)
  let step := tens k * i.den
  let x := i.value * scale
  let d := x / step
  let below := i.holds scale (d * step)
  let above := i.holds scale ((d + 1) * step)
  if below && above then some (if x - d * step < (d + 1) * step - x then d else d + 1)
  else if below then some d
  else if above then some (d + 1)
  else none

/-- The first hit on the grids from `10 ^ k` downwards. -/
def search (i : Interval) : Nat → Int → Nat × Int
  | 0, k => (i.value * tens (-k) / (tens k * i.den), k)
  | n + 1, k =>
    match i.onGrid k with
    | some d => (d, k)
    | none => i.search n (k - 1)

/-- The number of decimal digits. -/
def digitCount (n : Nat) : Nat := (Nat.toDigits 10 n).length

/-- The power of ten of the first digit of the value. -/
def leadingExponent (i : Interval) : Int :=
  if i.den ≤ i.value then (digitCount (i.value / i.den) : Int) - 1
  else -(digitCount ((i.den - 1) / i.value) : Int)

/-- Eighteen digits are enough for every number of 64 bits. -/
def shortest (i : Interval) : Nat × Int := i.search 19 (i.leadingExponent + 1)

end Interval

/-- `d * 10 ^ k` without an exponent. -/
def positional (d : Nat) (k : Int) : String :=
  let digits := Nat.toDigits 10 d
  let zeros (n : Nat) := List.replicate n '0'
  if 0 ≤ k then String.ofList (digits ++ zeros k.toNat)
  else
    let places := (-k).toNat
    if places < digits.length then
      let point := digits.length - places
      String.ofList (digits.take point ++ '.' :: digits.drop point)
    else String.ofList ('0' :: '.' :: (zeros (places - digits.length) ++ digits))

/-- The text of a floating-point number given by its bits. -/
def BinaryFormat.text (f : BinaryFormat) (bits : Nat) : String :=
  let sign := if f.isNegative bits then "-" else ""
  match f.magnitude bits with
  | .notANumber => "NaN"
  | .infinite => sign ++ "inf"
  | .finite m e lowest =>
    if m = 0 then sign ++ "0"
    else
      let (d, k) := (Interval.around m e lowest).shortest
      sign ++ positional d k

end ClassMetadata
