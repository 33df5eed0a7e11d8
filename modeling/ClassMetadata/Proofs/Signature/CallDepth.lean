import ClassMetadata.Proofs.Signature.Simulation

/-!
# How deep the calls of the descent go

Only argument lists are counted while a signature is read; an array calls the reader of types again without
being counted.  The calls stay bounded because the brackets of an array are read in one go, so that a call for
an array is followed by one for something else: two calls for each of the lists that can be open, and two
outside of them.

* `wholeSignature_eq_next_of_le` (with the simulation): **no text needs more** than the full budget;
* `tower`: arrays of classes, each but the last with the next one as its only argument;
  `exhausted_of_tower`: **a tower needs two calls for each of its levels**;
* `calls_within_budget` puts both together.
-/

namespace ClassMetadata

namespace Descent

variable {α β : Type}

/-- So many levels of `[La<` around `[La;`, and a text behind. -/
def tower : Nat → List Char → List Char
  | 0, behind => '[' :: 'L' :: 'a' :: ';' :: behind
  | levels + 1, behind => '[' :: 'L' :: 'a' :: '<' :: tower levels ('>' :: ';' :: behind)

theorem exists_tower (levels : Nat) (behind : List Char) :
    ∃ rest, tower levels behind = '[' :: 'L' :: rest := by
  cases levels <;> exact ⟨_, rfl⟩

/-! ### exhaustion -/

/-- The calls go deeper than the budget. -/
def Exhausts (read : Reading α) (p : Place) : Prop := (outcome read p).1 = .error .exhausted

theorem Exhausts.bind {m : Reading α} {p : Place} (h : Exhausts m p) (f : α → Reading β) :
    Exhausts (m >>= f) p := by
  rw [Exhausts, outcome_bind, show (outcome m p).1 = _ from h]
  rfl

/-- What comes first succeeds. -/
theorem Exhausts.behind {m : Reading α} {f : α → Reading β} {p q : Place} {a : α}
    (hm : outcome m p = (.ok a, q)) (hf : Exhausts (f a) q) : Exhausts (m >>= f) p := by
  rw [Exhausts, outcome_bind, hm]
  exact hf

/-- A call for an array of classes leads to the call for its class. -/
theorem exhausts_array {budget o d : Nat} {cs : List Char}
    (h : Exhausts (reference budget) ⟨'L' :: cs, o + 1, d⟩) :
    Exhausts (reference (budget + 1)) ⟨'[' :: 'L' :: cs, o, d⟩ := by
  have hcount : outcome (brackets maxDimensions) ⟨'[' :: 'L' :: cs, o, d⟩ =
      (.ok 1, ⟨'L' :: cs, o + 1, d⟩) := rfl
  have htype : Exhausts (javaType (reference budget)) ⟨'L' :: cs, o + 1, d⟩ := h
  change Exhausts (do
    let count ← brackets maxDimensions
    return State.wrap count (← javaType (reference budget))) ⟨'[' :: 'L' :: cs, o, d⟩
  exact .behind hcount (htype.bind _)

/-- A call for a class with a list leads to the call for its first argument. -/
theorem exhausts_class {budget o d : Nat} {cs : List Char} (hd : d < maxArgumentNesting)
    (h : Exhausts (reference budget) ⟨'[' :: cs, o + 3, d + 1⟩) :
    Exhausts (reference (budget + 1)) ⟨'L' :: 'a' :: '<' :: '[' :: cs, o, d⟩ := by
  have hname : outcome pathName ⟨'a' :: '<' :: '[' :: cs, o + 1, d⟩ =
      (.ok "a", ⟨'<' :: '[' :: cs, o + 2, d⟩) := rfl
  have hlist : Exhausts (argumentList (reference budget) (o + 2) (('<' :: '[' :: cs).length) [])
      ⟨'[' :: cs, o + 3, d + 1⟩ := h.bind _
  have harguments : Exhausts (typeArguments (reference budget)) ⟨'<' :: '[' :: cs, o + 2, d⟩ := by
    change Exhausts (if d = maxArgumentNesting then _ else _) _
    rw [if_neg (Nat.ne_of_lt hd)]
    exact hlist
  change Exhausts (classType (reference budget)) ⟨'a' :: '<' :: '[' :: cs, o + 1, d⟩
  exact .behind hname (harguments.bind _)

/-- **A tower needs two calls for each of its levels**, and two for its top. -/
theorem exhausted_of_tower {levels budget o d : Nat} (behind : List Char)
    (hd : d + levels ≤ maxArgumentNesting) (hbudget : budget < 2 * (levels + 1)) :
    Exhausts (reference budget) ⟨tower levels behind, o, d⟩ := by
  induction levels generalizing budget o d behind with
  | zero =>
    match budget, hbudget with
    | 0, _ => rfl
    | 1, _ => exact exhausts_array rfl
  | succ levels ih =>
    match budget, hbudget with
    | 0, _ => rfl
    | 1, _ => exact exhausts_array rfl
    | budget + 2, hbudget =>
      obtain ⟨rest, hrest⟩ := exists_tower levels ('>' :: ';' :: behind)
      have hinner : Exhausts (reference budget) ⟨'[' :: 'L' :: rest, o + 1 + 3, d + 1⟩ :=
        hrest ▸ ih _ (by omega) (by omega)
      rw [tower, hrest]
      exact exhausts_array (exhausts_class (by omega) hinner)

/-- The tower with as many lists as can be open. -/
theorem exhausts_wholeSignature {budget : Nat} (hbudget : budget < fullBudget) :
    Exhausts (wholeSignature budget (tower maxArgumentNesting []))
      ⟨tower maxArgumentNesting [], 0, 0⟩ := by
  have htower : Exhausts (reference budget) ⟨tower maxArgumentNesting [], 0, 0⟩ :=
    exhausted_of_tower [] (Nat.le_of_eq (Nat.zero_add _)) hbudget
  obtain ⟨rest, hrest⟩ := exists_tower maxArgumentNesting []
  rw [hrest] at htower ⊢
  have hsignature : Exhausts (signature budget) ⟨'[' :: 'L' :: rest, 0, 0⟩ := htower
  exact hsignature.bind _

/-- **The calls of the descent stay within the budget**: two for every argument list that can be open and
two outside of them.  With this budget and with every larger one the descent answers every text as it is
parsed, and stops at the same place, so it is never exhausted; and there is a text for which no smaller
budget is enough. -/
theorem calls_within_budget :
    fullBudget = 130 ∧
      (∀ (text : String) (budget : Nat), fullBudget ≤ budget →
        outcome (wholeSignature budget text.toList) ⟨text.toList, 0, 0⟩ =
            ((Signature.parse text).mapError .error, (Reader.ofString text).next.2.place) ∧
          (outcome (wholeSignature budget text.toList) ⟨text.toList, 0, 0⟩).1 ≠ .error .exhausted) ∧
      ∃ text : String, ∀ budget < fullBudget,
        (outcome (wholeSignature budget text.toList) ⟨text.toList, 0, 0⟩).1 = .error .exhausted := by
  refine ⟨rfl, ?enough, ?needed⟩
  case enough =>
    intro text budget hbudget
    have hplace : (Reader.ofString text).place = ⟨text.toList, 0, 0⟩ := by
      rw [Reader.place, Reader.position, Reader.offsetOf, Reader.ofString, Nat.sub_self]
    have hanswer : outcome (wholeSignature budget text.toList) ⟨text.toList, 0, 0⟩ =
        ((Signature.parse text).mapError .error, (Reader.ofString text).next.2.place) := by
      rw [← hplace]
      exact wholeSignature_eq_next_of_le (r := .ofString text) hbudget (List.suffix_refl _)
    refine ⟨hanswer, fun hexhausted => ?_⟩
    rw [hanswer] at hexhausted
    cases hparse : Signature.parse text with
    | ok t =>
      rw [hparse] at hexhausted
      cases hexhausted
    | error cause =>
      rw [hparse] at hexhausted
      cases hexhausted
  case needed =>
    refine ⟨String.ofList (tower maxArgumentNesting []), fun budget hbudget => ?_⟩
    rw [String.toList_ofList]
    exact exhausts_wholeSignature hbudget

set_option maxRecDepth 4000 in
/-- A tower with one list too many is refused at this list; the budget lasts up to there. -/
theorem high_tower_refused :
    let text := String.ofList (tower 65 [])
    fullBudget ≤ 130 ∧ Signature.parse text = .error (.nestingTooDeep 259) ∧
      (outcome (wholeSignature 130 text.toList) ⟨text.toList, 0, 0⟩).1 =
        .error (.error (.nestingTooDeep 259)) := by
  intro text
  have hbudget : fullBudget ≤ 130 := Nat.le_refl _
  have hparse : Signature.parse text = .error (.nestingTooDeep 259) := by
    rw [Signature.parse, Reader.ofString, String.toList_ofList]
    rfl
  obtain ⟨-, henough, -⟩ := calls_within_budget
  obtain ⟨hanswer, -⟩ := henough text 130 hbudget
  refine ⟨hbudget, hparse, ?_⟩
  rw [hanswer, hparse]
  rfl

end Descent

end ClassMetadata
