import ClassMetadata.Unicode.Unprintable
import ClassMetadata.Unicode.Combining

/-!
# Quoted strings and characters

How a string is shown between double quotes and a UTF-16 code unit between single quotes.  Both spell a
character that cannot be shown by its code point in lower-case hexadecimal.

* A string escapes its quote, the backslash, the common control characters, characters without a shape
  and combining characters; an apostrophe stays.
* A code unit escapes all but the printable ASCII characters; a surrogate has four digits and no braces.
-/

namespace ClassMetadata

open Unicode

/-- Lower-case hexadecimal digits. -/
def hexDigits (n : Nat) : String := String.ofList (Nat.toDigits 16 n)

/-- At least so many hexadecimal digits, zeros in front. -/
def hexPadded (width n : Nat) : String :=
  String.ofList (List.replicate (width - (Nat.toDigits 16 n).length) '0') ++ hexDigits n

/-- The escape that names a code point. -/
def escapedCodePoint (n : Nat) : String := "\\u\x7b" ++ hexDigits n ++ "\x7d"

/-- A character inside double quotes. -/
def escapeInString (c : Char) : String :=
  if c = '"' then "\\\""
  else if c = '\\' then "\\\\"
  else if c = '\n' then "\\n"
  else if c = '\r' then "\\r"
  else if c = '\t' then "\\t"
  else if c.toNat = 0 then "\\0"
  else if isCombining c || isUnprintable c then escapedCodePoint c.toNat
  else c.toString

def quoteString (s : String) : String := "\"" ++ String.join (s.toList.map escapeInString) ++ "\""

/-- Whether a UTF-16 code unit is one half of a pair. -/
def isSurrogate (unit : Nat) : Bool := decide (0xD800 ≤ unit) && decide (unit ≤ 0xDFFF)

/-- A code unit inside single quotes. -/
def escapeUnit (unit : Nat) : String :=
  if isSurrogate unit then "\\u" ++ hexPadded 4 unit
  else if unit = 0x27 then "\\'"
  else if unit = 0x22 then "\\\""
  else if unit = 0x5C then "\\\\"
  else if unit = 0x0A then "\\n"
  else if unit = 0x0D then "\\r"
  else if unit = 0x09 then "\\t"
  else if 0x20 ≤ unit ∧ unit ≤ 0x7E then (Char.ofNat unit).toString
  else escapedCodePoint unit

def quoteUnit (unit : Nat) : String := "'" ++ escapeUnit unit ++ "'"

end ClassMetadata
