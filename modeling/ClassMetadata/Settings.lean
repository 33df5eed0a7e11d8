/-!
# Settings

The one setting is `maxDepth`, how deep annotations and arrays may nest when they are materialized.  It
is read from a document of lines, each blank, a comment, or `max_depth = ` with an integer behind it, in
the syntax that TOML has for these.

* a key is bare or quoted; a double-quoted one may spell its characters by code point;
* an integer is decimal with an optional sign, or hexadecimal, octal or binary behind `0x`, `0o`, `0b`;
  single underscores may stand between digits; it fits 64 bits with a sign;
* comments hold no control characters but the tab; a line ends with a line feed that may have a carriage
  return in front; a byte order mark may open the document.

Whatever else TOML can say is refused: no other key, table or type of value is known, and the key may
not come twice.
-/

namespace ClassMetadata

structure Settings where
  maxDepth : Nat
  deriving DecidableEq, Repr

inductive SettingsError
  /-- no document of settings -/
  | malformed
  /-- a depth of zero -/
  | noDepth
  deriving DecidableEq, Repr

namespace Settings

/-- The settings of an empty document. -/
def standard : Settings := ⟨64⟩

/-! ### integers -/

/-- The value of a digit, letters from ten on. -/
def digitValue? (base : Nat) (c : Char) : Option Nat :=
  let value :=
    if c.isDigit then c.toNat - '0'.toNat
    else if 'a' ≤ c ∧ c ≤ 'f' then c.toNat - 'a'.toNat + 10
    else if 'A' ≤ c ∧ c ≤ 'F' then c.toNat - 'A'.toNat + 10
    else base
  if value < base then some value else none

/-- Digits behind a number that has begun, single underscores between them. -/
def moreDigits (base : Nat) : Nat → List Char → Option Nat
  | n, [] => some n
  | n, '_' :: c :: cs => do moreDigits base (n * base + (← digitValue? base c)) cs
  | n, c :: cs => do moreDigits base (n * base + (← digitValue? base c)) cs

def digits (base : Nat) : List Char → Option Nat
  | [] => none
  | c :: cs => do moreDigits base (← digitValue? base c) cs

/-- A decimal number without needless zeros in front. -/
def decimal : List Char → Option Nat
  | ['0'] => some 0
  | '0' :: _ => none
  | cs => digits 10 cs

def magnitude : List Char → Option Nat
  | '0' :: 'x' :: cs => digits 16 cs
  | '0' :: 'o' :: cs => digits 8 cs
  | '0' :: 'b' :: cs => digits 2 cs
  | '+' :: cs => decimal cs
  | cs => decimal cs

/-- The largest integer of 64 bits with a sign. -/
def largest : Nat := 0x7FFFFFFFFFFFFFFF

/-- An integer that is not negative; minus zero is zero. -/
def natural (cs : List Char) : Option Nat :=
  match cs with
  | '-' :: rest =>
    match decimal rest with
    | some 0 => some 0
    | _ => none
  | _ =>
    match magnitude cs with
    | some n => if n ≤ largest then some n else none
    | none => none

/-! ### lines -/

def isBlank (c : Char) : Bool := c == ' ' || c == '\t'

/-- The characters of a comment. -/
def isCommentChar (c : Char) : Bool :=
  c == '\t' || (decide (0x20 ≤ c.toNat) && c.toNat != 0x7F)

/-- Whether nothing but blanks and a comment is left of a line. -/
def isLineEnd (cs : List Char) : Bool :=
  match cs.dropWhile isBlank with
  | [] => true
  | '#' :: comment => comment.all isCommentChar
  | _ => false

/-- A character given by so many hexadecimal digits, and the text behind it. -/
def codePoint (width : Nat) (cs : List Char) : Option (Char × List Char) := do
  let n ← (cs.take width).foldlM (fun n c => return n * 16 + (← digitValue? 16 c)) 0
  if (cs.take width).length = width ∧ n.isValidChar then some (Char.ofNat n, cs.drop width) else none

/-- Reads a text in front of a double quote, of which at most so many characters are expected; gives the
text behind the quote if the two are equal. -/
def afterQuoted : List Char → List Char → Option (List Char)
  | [], '"' :: cs => some cs
  | expected :: more, '\\' :: 'u' :: cs => do
    let (c, rest) ← codePoint 4 cs
    if c = expected then afterQuoted more rest else none
  | expected :: more, '\\' :: 'U' :: cs => do
    let (c, rest) ← codePoint 8 cs
    if c = expected then afterQuoted more rest else none
  | expected :: more, c :: cs => if c = expected then afterQuoted more cs else none
  | _, _ => none

/-- The text behind a word, if it stands in front. -/
def afterWord (word cs : List Char) : Option (List Char) :=
  if word.isPrefixOf cs then some (cs.drop word.length) else none

def keyName : List Char := "max_depth".toList

/-- The text behind the key in any of its spellings. -/
def afterKey : List Char → Option (List Char)
  | '"' :: cs => afterQuoted keyName cs
  | '\'' :: cs => afterWord (keyName ++ ['\'']) cs
  | cs => afterWord keyName cs

def isNumeralChar (c : Char) : Bool := c.isAlphanum || c == '_' || c == '+' || c == '-'

/-- The depth that a line sets. -/
def depthOfLine (cs : List Char) : Option Nat := do
  let behindKey ← afterKey (cs.dropWhile isBlank)
  match behindKey.dropWhile isBlank with
  | '=' :: cs =>
    let cs := cs.dropWhile isBlank
    let depth ← natural (cs.takeWhile isNumeralChar)
    if isLineEnd (cs.dropWhile isNumeralChar) then some depth else none
  | _ => none

/-! ### documents -/

/-- The lines of a text, without their ends. -/
def lines : List Char → List (List Char)
  | [] => [[]]
  | '\n' :: cs => [] :: lines cs
  | '\r' :: '\n' :: cs => [] :: lines cs
  | c :: cs =>
    match lines cs with
    | [] => [[c]]
    | line :: rest => (c :: line) :: rest

/-- The depth that a document sets, `found` being set in front of it. -/
def depthOfLines (found : Option Nat) : List (List Char) → Option (Option Nat)
  | [] => some found
  | line :: rest =>
    if isLineEnd line then depthOfLines found rest
    else
      match found, depthOfLine line with
      | none, some depth => depthOfLines (some depth) rest
      | _, _ => none

def withoutByteOrderMark : List Char → List Char
  | '\uFEFF' :: cs => cs
  | cs => cs

/-- Reads a document of settings. -/
def read (document : String) : Except SettingsError Settings :=
  match depthOfLines none (lines (withoutByteOrderMark document.toList)) with
  | none => .error .malformed
  | some none => .ok standard
  | some (some 0) => .error .noDepth
  | some (some depth) => .ok ⟨depth⟩

end Settings

/-- The text of an error; a malformed document has none of its own. -/
def SettingsError.message? : SettingsError → Option String
  | malformed => none
  | noDepth => some "Invalid config: max_depth must be at least 1"

end ClassMetadata
