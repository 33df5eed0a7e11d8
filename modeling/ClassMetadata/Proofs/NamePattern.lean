import ClassMetadata.Proofs.QualifiedName
import Mathlib.Computability.Language

/-!
# The pattern of qualified names

The shape of a qualified name is given by the pattern `[\p{L}_$][\p{L}\p{N}_$]*` for an identifier and
`identifier(\.identifier)*` for the whole name.  Here the pattern is a language, put together by concatenation
and repetition, and the scan of a name is compared with it.  The two take a name apart at different places:
the pattern knows nothing of pieces, its repetition has to be matched with them.

* `identifierPattern`, `namePattern`: the pattern as a language;
* `mem_identifierPattern`, `mem_namePattern`: **a text matches the pattern as its pieces match the one for an
  identifier**, and so as the scan says (`hasNameShape_iff_mem`);
* `IsIdentifierPiece`: what a piece must be, the reserved words left out;
* `qualified_piece_by_piece`: the language of qualified names, **closed under joining and under cutting** at
  a dot.
-/

namespace ClassMetadata

open Unicode
open scoped Computability

/-! ### pieces -/

theorem pieces_eq_splitOn (cs : List Char) : pieces cs = cs.splitOn '.' := by
  induction cs with
  | nil => rfl
  | cons c cs ih =>
    obtain ⟨piece, rest, h⟩ := exists_pieces cs
    rw [List.splitOn, List.splitOnP_cons_eq_if_modifyHead, ← List.splitOn, ← ih]
    by_cases hc : c = '.'
    · subst hc
      exact pieces_dot cs
    · rw [if_neg (by simpa using hc), pieces_cons hc h, h]
      rfl

/-- A word and more words behind it, each with its dot, are joined by dots. -/
theorem intercalate_dot (word : List Char) (words : List (List Char)) :
    ['.'].intercalate (word :: words) = word ++ words.flatMap ('.' :: ·) := by
  induction words generalizing word with
  | nil => simp
  | cons next words ih => simp [List.intercalate_cons_cons, ih]

/-! ### the pattern -/

/-- The texts of one character that has some property. -/
def oneOf (p : Char → Bool) : Language Char := {w | ∃ c, p c = true ∧ w = [c]}

/-- A start and any number of parts. -/
def identifierPattern : Language Char := oneOf isIdentifierStart * (oneOf isIdentifierPart)∗

/-- An identifier and any number of others, each behind a dot. -/
def namePattern : Language Char := identifierPattern * (oneOf (· == '.') * identifierPattern)∗

theorem mem_kstar_oneOf {p : Char → Bool} {cs : List Char} : cs ∈ (oneOf p)∗ ↔ cs.all p = true := by
  rw [Language.mem_kstar, List.all_eq_true]
  constructor
  · rintro ⟨words, rfl, hwords⟩ c hc
    obtain ⟨word, hword, hc⟩ := List.mem_flatten.mp hc
    obtain ⟨d, hd, rfl⟩ := hwords word hword
    rw [List.mem_singleton.mp hc]
    exact hd
  · intro h
    refine ⟨cs.map fun c => [c], ?_, ?_⟩
    · rw [← List.flatMap_def, List.flatMap_singleton']
    · intro word hword
      obtain ⟨c, hc, rfl⟩ := List.mem_map.mp hword
      exact ⟨c, h c hc, rfl⟩

theorem mem_oneOf_mul {p : Char → Bool} {l : Language Char} {cs : List Char} :
    cs ∈ oneOf p * l ↔ ∃ c rest, cs = c :: rest ∧ p c = true ∧ rest ∈ l := by
  rw [Language.mem_mul]
  constructor
  · rintro ⟨_, ⟨c, hc, rfl⟩, rest, hrest, rfl⟩
    exact ⟨c, rest, rfl, hc, hrest⟩
  · rintro ⟨c, rest, rfl, hc, hrest⟩
    exact ⟨[c], ⟨c, hc, rfl⟩, rest, hrest, rfl⟩

theorem mem_identifierPattern {cs : List Char} : cs ∈ identifierPattern ↔ isShaped cs = true := by
  rw [identifierPattern, mem_oneOf_mul]
  cases cs with
  | nil => simp [isShaped]
  | cons c cs =>
    rw [isShaped, Bool.and_eq_true, ← mem_kstar_oneOf]
    constructor
    · rintro ⟨d, rest, heq, hstart, hrest⟩
      obtain ⟨rfl, rfl⟩ := List.cons.inj heq
      exact ⟨hstart, hrest⟩
    · rintro ⟨hstart, hrest⟩
      exact ⟨c, cs, rfl, hstart, hrest⟩

/-- The repetition in the pattern is some identifiers, each behind its dot. -/
theorem mem_kstar_dot {cs : List Char} :
    cs ∈ (oneOf (· == '.') * identifierPattern)∗ ↔
      ∃ words : List (List Char), (∀ word ∈ words, isShaped word = true) ∧ cs = words.flatMap ('.' :: ·) := by
  rw [Language.mem_kstar]
  constructor
  · rintro ⟨parts, rfl, hparts⟩
    induction parts with
    | nil => exact ⟨[], by simp, rfl⟩
    | cons part parts ih =>
      obtain ⟨hpart, hrest⟩ := List.forall_mem_cons.mp hparts
      obtain ⟨c, word, rfl, hc, hword⟩ := mem_oneOf_mul.mp hpart
      obtain ⟨words, hwords, heq⟩ := ih hrest
      obtain rfl : c = '.' := by simpa using hc
      refine ⟨word :: words, List.forall_mem_cons.mpr ⟨mem_identifierPattern.mp hword, hwords⟩, ?_⟩
      rw [List.flatten_cons, heq, List.flatMap_cons]
  · rintro ⟨words, hwords, rfl⟩
    refine ⟨words.map ('.' :: ·), List.flatMap_def, ?_⟩
    intro part hpart
    obtain ⟨word, hword, rfl⟩ := List.mem_map.mp hpart
    exact mem_oneOf_mul.mpr ⟨'.', word, rfl, rfl, mem_identifierPattern.mpr (hwords word hword)⟩

/-- No identifier has a dot in it. -/
theorem dot_not_mem_of_isShaped {word : List Char} (h : isShaped word = true) : '.' ∉ word := by
  cases word with
  | nil => exact List.not_mem_nil
  | cons c cs =>
    obtain ⟨hstart, hparts⟩ := Bool.and_eq_true_iff.mp h
    rintro hdot
    rcases List.mem_cons.mp hdot with rfl | hdot
    · rw [isIdentifierStart_dot] at hstart
      cases hstart
    · have := List.all_eq_true.mp hparts '.' hdot
      rw [isIdentifierPart_dot] at this
      cases this

/-- **A text matches the pattern as its pieces match the one for an identifier.** -/
theorem mem_namePattern {cs : List Char} :
    cs ∈ namePattern ↔ ∀ piece ∈ cs.splitOn '.', isShaped piece = true := by
  rw [namePattern, Language.mem_mul]
  constructor
  · rintro ⟨word, hword, behind, hbehind, rfl⟩
    obtain ⟨words, hwords, rfl⟩ := mem_kstar_dot.mp hbehind
    have hall : ∀ piece ∈ word :: words, isShaped piece = true :=
      List.forall_mem_cons.mpr ⟨mem_identifierPattern.mp hword, hwords⟩
    rw [← intercalate_dot,
      List.splitOn_intercalate '.' (fun l hl => dot_not_mem_of_isShaped (hall l hl)) (by simp)]
    exact hall
  · intro h
    obtain ⟨word, words, hpieces⟩ := exists_pieces cs
    rw [pieces_eq_splitOn] at hpieces
    rw [hpieces] at h
    obtain ⟨hword, hwords⟩ := List.forall_mem_cons.mp h
    refine ⟨word, mem_identifierPattern.mpr hword, _, mem_kstar_dot.mpr ⟨words, hwords, rfl⟩, ?_⟩
    rw [← intercalate_dot, ← hpieces, List.intercalate_splitOn]

/-- The scan of a text and the pattern. -/
theorem hasNameShape_iff_mem {cs : List Char} : hasNameShape false cs = true ↔ cs ∈ namePattern := by
  rw [mem_namePattern, hasNameShape_eq_all, pieces_eq_splitOn, List.all_eq_true]

/-! ### qualified names -/

/-- What stands between two dots of a qualified name. -/
def IsIdentifierPiece (piece : List Char) : Prop :=
  (∃ c cs, piece = c :: cs ∧ (isLetter c = true ∨ c = '_' ∨ c = '$') ∧
    ∀ d ∈ cs, isLetter d = true ∨ isNumber d = true ∨ d = '_' ∨ d = '$') ∧
    String.ofList piece ∉ reservedWords

theorem isIdentifierStart_iff {c : Char} :
    isIdentifierStart c = true ↔ isLetter c = true ∨ c = '_' ∨ c = '$' := by
  simp [isIdentifierStart, or_assoc]

theorem isIdentifierPart_iff {c : Char} :
    isIdentifierPart c = true ↔ isLetter c = true ∨ isNumber c = true ∨ c = '_' ∨ c = '$' := by
  rw [isIdentifierPart, Bool.or_eq_true, isIdentifierStart_iff]
  grind

theorem isReserved_eq_false_iff {piece : List Char} :
    isReserved piece = false ↔ String.ofList piece ∉ reservedWords := by
  rw [isReserved, ← Bool.not_eq_true, List.contains_iff_mem]

theorem isIdentifierPiece_iff {piece : List Char} :
    IsIdentifierPiece piece ↔ isShaped piece = true ∧ isReserved piece = false := by
  rw [IsIdentifierPiece, isReserved_eq_false_iff]
  refine and_congr_left fun _ => ?_
  cases piece with
  | nil => simp [isShaped]
  | cons c cs => simp [isShaped, isIdentifierStart_iff, isIdentifierPart_iff]

/-- **Names are qualified piece by piece.**  A name is qualified if it matches the pattern and none of its
pieces is reserved, and that is if all its pieces are identifiers.  So two texts joined by a dot are a
qualified name if both are, and the package of a qualified name is a package name. -/
theorem qualified_piece_by_piece (name : String) :
    (isQualifiedName name = true ↔
        name.toList ∈ namePattern ∧ ∀ piece ∈ name.toList.splitOn '.', String.ofList piece ∉ reservedWords) ∧
      (isQualifiedName name = true ↔ ∀ piece ∈ name.toList.splitOn '.', IsIdentifierPiece piece) ∧
      (∀ other, isQualifiedName (name ++ "." ++ other) = true ↔
        isQualifiedName name = true ∧ isQualifiedName other = true) ∧
      ∀ package, isQualifiedName name = true → packageOf? name = some package →
        isPackageName package = true := by
  refine ⟨?matched, ?pieces, fun other => isQualifiedName_append, fun package => isPackageName_of_packageOf?⟩
  case matched =>
    rw [isQualifiedName, Bool.and_eq_true, hasNameShape_iff_mem, List.all_eq_true, pieces_eq_splitOn]
    simp only [Bool.not_eq_true', isReserved_eq_false_iff]
  case pieces => simp only [isQualifiedName_iff, pieces_eq_splitOn, isIdentifierPiece_iff]

/-- A name in three pieces, and the package that it is in. -/
theorem package_of_menu :
    isQualifiedName "café.menu.Card1" = true ∧ packageOf? "café.menu.Card1" = some "café.menu" ∧
      isPackageName "café.menu" = true := by
  have hname : isQualifiedName "café.menu.Card1" = true := by decide +kernel
  have hpackage : packageOf? "café.menu.Card1" = some "café.menu" := rfl
  obtain ⟨-, -, -, hclosed⟩ := qualified_piece_by_piece "café.menu.Card1"
  exact ⟨hname, hpackage, hclosed "café.menu" hname hpackage⟩

end ClassMetadata
