import ClassMetadata.QualifiedName

/-!
# The language of qualified names

A name is scanned as a whole and only the reserved words are looked for piece by piece.  Here the scan is
taken apart as well: a name is qualified exactly if every piece between its dots is an identifier.

* `hasNameShape_eq_all`: the scan, piece by piece;
* `isQualifiedName_iff`: **a name is qualified as its pieces are identifiers**;
* `isQualifiedName_append`: names joined by a dot, and so `isPackageName_of_packageOf?`: **what stands in
  front of the last dot of a qualified name is a package name**.
-/

namespace ClassMetadata

/-! ### pieces -/

theorem exists_pieces (cs : List Char) : ∃ piece rest, pieces cs = piece :: rest := by
  cases cs with
  | nil => exact ⟨[], [], rfl⟩
  | cons c cs =>
    unfold pieces
    split
    · exact ⟨[], _, rfl⟩
    · split
      · exact ⟨[c], [], rfl⟩
      · exact ⟨_, _, rfl⟩

theorem pieces_dot (cs : List Char) : pieces ('.' :: cs) = [] :: pieces cs := rfl

theorem pieces_cons {c : Char} {cs piece : List Char} {rest : List (List Char)} (hc : c ≠ '.')
    (h : pieces cs = piece :: rest) : pieces (c :: cs) = (c :: piece) :: rest := by
  rw [pieces, if_neg hc, h]

/-- A dot ends one piece and begins another. -/
theorem pieces_append (front back : List Char) :
    pieces (front ++ '.' :: back) = pieces front ++ pieces back := by
  induction front with
  | nil => rfl
  | cons c front ih =>
    by_cases hc : c = '.'
    · subst hc
      rw [List.cons_append, pieces_dot, pieces_dot, ih, List.cons_append]
    · obtain ⟨piece, rest, h⟩ := exists_pieces front
      have hwhole : pieces (front ++ '.' :: back) = piece :: (rest ++ pieces back) := by rw [ih, h]; rfl
      rw [List.cons_append, pieces_cons hc hwhole, pieces_cons hc h, List.cons_append]

/-! ### the scan -/

/-- Whether a piece begins and goes on as an identifier does. -/
def isShaped : List Char → Bool
  | [] => false
  | c :: cs => isIdentifierStart c && cs.all isIdentifierPart

theorem isIdentifierPart_dot : isIdentifierPart '.' = false := by decide +kernel

theorem isIdentifierStart_dot : isIdentifierStart '.' = false := by decide +kernel

/-- The scan inside an identifier still has to finish the first piece, the scan in front of one has all
pieces to do. -/
theorem hasNameShape_eq {cs piece : List Char} {rest : List (List Char)} (h : pieces cs = piece :: rest) :
    hasNameShape true cs = (piece.all isIdentifierPart && rest.all isShaped) ∧
      hasNameShape false cs = (isShaped piece && rest.all isShaped) := by
  induction cs generalizing piece rest with
  | nil =>
    obtain ⟨rfl, rfl⟩ : [] = piece ∧ [] = rest := List.cons.inj h
    exact ⟨rfl, rfl⟩
  | cons c cs ih =>
    obtain ⟨first, others, hcs⟩ := exists_pieces cs
    obtain ⟨hinside, hbefore⟩ := ih hcs
    by_cases hc : c = '.'
    · subst hc
      obtain ⟨rfl, rfl⟩ : [] = piece ∧ first :: others = rest := by
        rw [pieces_dot, hcs] at h
        exact List.cons.inj h
      simp [hasNameShape, hbefore, isIdentifierPart_dot, isIdentifierStart_dot, isShaped]
    · obtain ⟨rfl, rfl⟩ : c :: first = piece ∧ others = rest := by
        rw [pieces_cons hc hcs] at h
        exact List.cons.inj h
      constructor
      · cases hpart : isIdentifierPart c <;> simp [hasNameShape, hinside, hpart, hc]
      · simp [hasNameShape, hinside, isShaped, Bool.and_assoc]

theorem hasNameShape_eq_all (cs : List Char) : hasNameShape false cs = (pieces cs).all isShaped := by
  obtain ⟨piece, rest, h⟩ := exists_pieces cs
  rw [(hasNameShape_eq h).2, h, List.all_cons]

/-! ### names -/

/-- **A name is qualified as its pieces are identifiers.** -/
theorem isQualifiedName_iff {name : String} :
    isQualifiedName name = true ↔
      ∀ piece ∈ pieces name.toList, isShaped piece = true ∧ isReserved piece = false := by
  rw [isQualifiedName, hasNameShape_eq_all, Bool.and_eq_true, List.all_eq_true, List.all_eq_true]
  simp only [Bool.not_eq_true']
  constructor
  · rintro ⟨hshape, hreserved⟩ piece hpiece
    exact ⟨hshape piece hpiece, hreserved piece hpiece⟩
  · intro h
    exact ⟨fun piece hpiece => (h piece hpiece).1, fun piece hpiece => (h piece hpiece).2⟩

theorem isQualifiedName_append {a b : String} :
    isQualifiedName (a ++ "." ++ b) = true ↔ isQualifiedName a = true ∧ isQualifiedName b = true := by
  have htext : (a ++ "." ++ b).toList = a.toList ++ '.' :: b.toList := by simp
  rw [isQualifiedName_iff, isQualifiedName_iff, isQualifiedName_iff, htext, pieces_append]
  exact List.forall_mem_append

/-! ### packages -/

/-- The package of a name is all that stands in front of its last dot. -/
theorem packageOf?_eq_some_iff {name package : String} :
    packageOf? name = some package ↔ ∃ simple, name = package ++ "." ++ simple ∧ '.' ∉ simple.toList := by
  unfold packageOf?
  rw [Option.map_eq_some_iff]
  constructor
  · rintro ⟨⟨front, back⟩, hcut, rfl⟩
    obtain ⟨htext, hback⟩ := cutAtLast_eq_some_iff.1 hcut
    refine ⟨String.ofList back, ?_, by simpa using hback⟩
    rw [← String.toList_inj, htext]
    simp
  · rintro ⟨simple, rfl, hsimple⟩
    refine ⟨(package.toList, simple.toList), ?_, String.ofList_toList⟩
    rw [cutAtLast_eq_some_iff]
    exact ⟨by simp, hsimple⟩

/-- **The package of a qualified name is named by the same rules.** -/
theorem isPackageName_of_packageOf? {name package : String} (hname : isQualifiedName name = true)
    (h : packageOf? name = some package) : isPackageName package = true := by
  obtain ⟨simple, rfl, -⟩ := packageOf?_eq_some_iff.1 h
  exact (isQualifiedName_append.1 hname).1

end ClassMetadata
