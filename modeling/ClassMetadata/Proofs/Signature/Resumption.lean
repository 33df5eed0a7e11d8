import ClassMetadata.Proofs.Signature.Simulation

/-!
# A reader goes on where it stopped

Every call on a reader begins anew behind what the calls before it have read, whatever they answered.  So it
does what the first call does on a reader of that part of the text alone, with all offsets moved
(`next_of_append`).  Only at the end of the text it is another matter: nothing of a text is not the empty
text.

* One call leaves a part of what was left (`next_suffix`), hence so do several (`after_suffix`);
* `next_resumes` puts together what is true between two calls and of the next one, and says it of the reader
  by descent as well, whose counter of open lists is then zero.
-/

namespace ClassMetadata

/-- The same error, of a text with so many bytes more in front. -/
def SignatureError.shift (bytes : Nat) : SignatureError → SignatureError
  | empty => empty
  | unexpectedEnd o => unexpectedEnd (bytes + o)
  | unexpectedChar found o expected => unexpectedChar found (bytes + o) expected
  | emptyIdentifier o => emptyIdentifier (bytes + o)
  | emptyTypeArguments o => emptyTypeArguments (bytes + o)
  | tooManyDimensions o => tooManyDimensions (bytes + o)
  | nestingTooDeep o => nestingTooDeep (bytes + o)
  | trailingInput o => trailingInput (bytes + o)

/-- An empty list is reported one byte in front of the refused character, so one must be there. -/
theorem Refusal.errorAt_add (reason : Refusal) (c : Char) (bytes : Nat) {o : Nat}
    (ho : reason = .emptyTypeArguments → 0 < o) :
    reason.errorAt c (bytes + o) = (reason.errorAt c o).shift bytes := by
  cases reason with
  | emptyTypeArguments => exact congrArg SignatureError.emptyTypeArguments (Nat.add_sub_assoc (ho rfl) bytes)
  | _ => rfl

namespace State

/-- The three ways in which a run halts. -/
theorem run_cases (σ : State) (text : List Char) :
    (∃ stack t, σ.run text = .ended ⟨stack, .done t⟩) ∨
      (∃ σ' : State, σ'.Unfinished ∧ σ.run text = .ended σ') ∨
      ∃ reason c behind, c :: behind <:+ text ∧ σ.run text = .refused reason c behind := by
  cases hrun : σ.run text with
  | ended σ' =>
    obtain ⟨stack, point⟩ := σ'
    cases point with
    | done t => exact .inl ⟨stack, t, rfl⟩
    | _ =>
      refine .inr (.inl ⟨_, ?_, rfl⟩)
      nofun
  | refused reason c behind =>
    obtain ⟨read, -, htext, -, -⟩ := run_eq_refused_iff.mp hrun
    exact .inr (.inr ⟨reason, c, behind, ⟨read, htext.symm⟩, rfl⟩)

/-- In front of the `>` of an empty list stands its `<`. -/
theorem read_of_refused_empty {text behind : List Char} {c : Char}
    (hrun : initial.run text = .refused .emptyTypeArguments c behind) :
    ∃ front, text = front ++ '<' :: c :: behind := by
  obtain ⟨read, σ, rfl, hread, hstep⟩ := run_eq_refused_iff.mp hrun
  rcases step_eq_error hstep with hlocal | ⟨htrailing, -⟩ | ⟨-, -, outer, name, hpoint⟩
  · exact absurd rfl hlocal.2
  · cases htrailing
  · obtain ⟨front, rfl⟩ := Signature.read_of_empty_arguments hread hpoint
    exact ⟨front, List.append_assoc front _ _⟩

end State

namespace Reader

/-! ### one call -/

theorem offsetOf_append (front : List Char) {back suffix : List Char} (h : suffix <:+ back) :
    offsetOf ⟨front ++ back, back⟩ suffix = byteLength front + offsetOf ⟨back, back⟩ suffix := by
  obtain ⟨read, rfl⟩ := h
  simp only [offsetOf, byteLength_append]
  omega

/-- A call leaves the text as it is, and a part of what was left. -/
theorem next_suffix (r : Reader) : r.next.2.text = r.text ∧ r.next.2.rest <:+ r.rest := by
  by_cases hempty : r.text = []
  · rw [next_of_empty hempty]
    exact ⟨rfl, List.suffix_refl _⟩
  rcases State.initial.run_cases r.rest with
    ⟨stack, t, hrun⟩ | ⟨σ, hσ, hrun⟩ | ⟨reason, c, behind, hrest, hrun⟩
  · rw [next_of_done hempty hrun]
    exact ⟨rfl, List.nil_suffix⟩
  · rw [next_of_unfinished hempty hσ hrun]
    exact ⟨rfl, List.nil_suffix⟩
  · rw [next_of_refused hempty hrun]
    refine ⟨rfl, ?_⟩
    split
    · exact (List.suffix_cons c behind).trans hrest
    · exact hrest

theorem position_next (r : Reader) : r.next.2.position = r.offsetOf r.next.2.rest := by
  rw [position, offsetOf, r.next_suffix.1]
  rfl

/-- No call goes back. -/
theorem position_le_next (r : Reader) : r.position ≤ r.next.2.position := by
  obtain ⟨read, hread⟩ := r.next_suffix.2
  rw [position_next, position, offsetOf, offsetOf, ← hread, byteLength_append]
  omega

theorem position_append (front back : List Char) : position ⟨front ++ back, back⟩ = byteLength front := by
  rw [position, offsetOf, byteLength_append, Nat.add_sub_cancel]

/-- **A call does what the first call on the part that is left does**, with all offsets moved. -/
theorem next_of_append (front : List Char) {back : List Char} (hne : back ≠ []) :
    (next ⟨front ++ back, back⟩).1 = (next ⟨back, back⟩).1.mapError (.shift (byteLength front)) ∧
      (next ⟨front ++ back, back⟩).2.rest = (next ⟨back, back⟩).2.rest := by
  have htext : front ++ back ≠ [] := List.append_ne_nil_of_right_ne_nil front hne
  rcases State.initial.run_cases back with ⟨stack, t, hrun⟩ | ⟨σ, hσ, hrun⟩ | ⟨reason, c, behind, hback, hrun⟩
  · rw [next_of_done htext hrun, next_of_done hne hrun]
    exact ⟨rfl, rfl⟩
  · rw [next_of_unfinished htext hσ hrun, next_of_unfinished hne hσ hrun, byteLength_append]
    exact ⟨rfl, rfl⟩
  · have hpositive : reason = .emptyTypeArguments → 0 < offsetOf ⟨back, back⟩ (c :: behind) := by
      rintro rfl
      obtain ⟨read, rfl⟩ := State.read_of_refused_empty hrun
      simp only [offsetOf, byteLength_append, byteLength]
      have : 0 < '<'.utf8Size := Char.utf8Size_pos _
      omega
    rw [next_of_refused htext hrun, next_of_refused hne hrun, offsetOf_append front hback,
      reason.errorAt_add c _ hpositive]
    exact ⟨rfl, rfl⟩

theorem position_next_of_append (front : List Char) {back : List Char} (hne : back ≠ []) :
    (next ⟨front ++ back, back⟩).2.position = byteLength front + (next ⟨back, back⟩).2.position := by
  obtain ⟨-, hrest⟩ := next_of_append front hne
  rw [position_next, position_next, hrest]
  exact offsetOf_append front (next_suffix ⟨back, back⟩).2

/-- At the end of a text that is not empty. -/
theorem next_at_end {text : List Char} (hne : text ≠ []) :
    next ⟨text, []⟩ = (.error (.unexpectedEnd (byteLength text)), ⟨text, []⟩) := by
  have hinitial : State.initial.Unfinished := nofun
  exact next_of_unfinished hne hinitial rfl

/-! ### several calls -/

/-- The reader behind so many calls. -/
def after : Nat → Reader → Reader
  | 0, r => r
  | calls + 1, r => after calls r.next.2

end Reader

namespace Descent

/-- The place behind so many calls by descent. -/
def placeAfter (text : List Char) : Nat → Place → Place
  | 0, p => p
  | calls + 1, p => placeAfter text calls (outcome (wholeSignature fullBudget text) p).2

end Descent

namespace Reader

/-- Several calls leave the text as it is, and a part of what was left; by descent they come to the same
place. -/
theorem after_suffix (r : Reader) (calls : Nat) (hsuffix : r.rest <:+ r.text) :
    (r.after calls).text = r.text ∧ (r.after calls).rest <:+ r.rest ∧
      Descent.placeAfter r.text calls r.place = (r.after calls).place := by
  induction calls generalizing r with
  | zero => exact ⟨rfl, List.suffix_refl _, rfl⟩
  | succ calls ih =>
    obtain ⟨htext, hrest⟩ := r.next_suffix
    have hsuffix' : r.next.2.rest <:+ r.next.2.text := by
      rw [htext]
      exact hrest.trans hsuffix
    obtain ⟨htext', hrest', hplace⟩ := ih _ hsuffix'
    rw [htext] at htext' hplace
    refine ⟨htext', hrest'.trans hrest, ?_⟩
    rw [Descent.placeAfter, Descent.wholeSignature_eq_next hsuffix]
    exact hplace

/-- **A reader goes on where it stopped.**  After any number of calls it stands between two characters of its
text, and never in front of where it stood; by descent the same place is reached, with no list open, and the
next call gives the same.  If something is left, this call gives what the first call on that part alone gives,
with all offsets moved; if nothing of a text is left, the text ends too early, and nothing moves; and the
empty text is reported again and again. -/
theorem next_resumes (text : String) (calls : Nat) :
    ∃ front back, text = front ++ back ∧
      let r := (ofString text).after calls
      let p := front.utf8ByteSize
      let fresh := (ofString back).next
      r = ⟨text.toList, back.toList⟩ ∧ r.position = p ∧ p ≤ r.next.2.position ∧
        Descent.placeAfter text.toList calls ⟨text.toList, 0, 0⟩ = ⟨back.toList, p, 0⟩ ∧
        Descent.outcome (Descent.wholeSignature Descent.fullBudget text.toList) ⟨back.toList, p, 0⟩ =
          (r.next.1.mapError .error, ⟨r.next.2.rest, r.next.2.position, 0⟩) ∧
        (back ≠ "" → r.next.1 = fresh.1.mapError (.shift p) ∧ r.next.2.position = p + fresh.2.position) ∧
        (text ≠ "" → back = "" → r.next = (.error (.unexpectedEnd p), r)) ∧
        (text = "" → r.next = (.error .empty, r)) := by
  obtain ⟨htext, ⟨u, hu⟩, hplace⟩ := (ofString text).after_suffix calls (List.suffix_refl _)
  generalize (ofString text).after calls = r at *
  obtain ⟨chars, v⟩ := r
  obtain rfl : chars = text.toList := htext
  replace hu : text.toList = u ++ v := hu.symm
  refine ⟨String.ofList u, String.ofList v, ?_, ?_⟩
  · rw [← String.ofList_append, ← hu, String.ofList_toList]
  rw [utf8ByteSize_ofList, ofString, String.toList_ofList]
  have hposition : position ⟨text.toList, v⟩ = byteLength u := by
    rw [hu]
    exact position_append u v
  refine ⟨rfl, hposition, hposition ▸ position_le_next _, ?place, ?descent, ?fresh, ?ended, ?empty⟩
  case place =>
    have hstart : (ofString text).place = ⟨text.toList, 0, 0⟩ := by
      rw [place, position, offsetOf, ofString, Nat.sub_self]
    rw [← hstart, ← hposition]
    exact hplace
  case descent =>
    have := Descent.wholeSignature_eq_next (r := ⟨text.toList, v⟩) ⟨u, hu.symm⟩
    rwa [place, hposition] at this
  case fresh =>
    intro hback
    have hne : v ≠ [] := by simpa using hback
    rw [hu]
    exact ⟨(next_of_append u hne).1, position_next_of_append u hne⟩
  case ended =>
    intro htext hback
    obtain rfl : v = [] := by simpa using hback
    rw [next_at_end (by simpa using htext), hu, List.append_nil]
  case empty =>
    rintro rfl
    exact next_of_empty rfl

/-- An error inside an argument list, and a call that goes on behind it. -/
example : nexts 2 (ofString "Lé<>I") = [(.error (.emptyTypeArguments 3), 5), (.ok (.base .int), 6)] := rfl

end Reader

end ClassMetadata
