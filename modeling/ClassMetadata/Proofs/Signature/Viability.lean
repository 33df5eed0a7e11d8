import ClassMetadata.Proofs.Signature.RoundTrip

/-!
# Errors and viable texts

A text is viable if a whole signature begins with it.  The machine stops exactly where a text stops to be
viable:

* from every state a few characters lead to a result (`State.exists_completes`): they close the innermost open
  type, and the one around it becomes the innermost.  No bracket and no argument list is opened for this, so
  the limits do not matter;
* a refused character stays refused whatever comes behind it.

Hence `viable_iff`: **a text is viable exactly if none of its characters is refused.**  An error names the
place in front of the refused character, with one exception: an empty argument list is noticed at its `>` and
reported at its `<`.  `parse_error_locates` says what every error means, and when each of the two errors
comes up that do not depend on a single character.
-/

namespace ClassMetadata

namespace Signature

/-- A whole signature. -/
def Accepted (text : String) : Prop := ∃ t, parse text = .ok t

/-- The beginning of a whole signature, or one itself. -/
def Viable (text : String) : Prop := ∃ more, Accepted (text ++ more)

end Signature

/-! ### completions -/

namespace State

/-- A text that leads from a state to a result. -/
def Completes (σ : State) (text : List Char) : Prop := ∃ stack t, σ.run text = .ended ⟨stack, .done t⟩

theorem Completes.of_run_eq {σ σ' : State} {text text' : List Char} (h : σ'.Completes text')
    (hrun : σ.run text = σ'.run text') : σ.Completes text := by
  rw [Completes, hrun]
  exact h

/-- Once the innermost type is finished, a `>;` for every open list finishes the rest. -/
theorem exists_completes_deliver (stack : List Frame) (t : Signature) :
    ∃ text, (deliver t stack).Completes text := by
  induction stack generalizing t with
  | nil => exact ⟨[], [], t, rfl⟩
  | cons frame stack ih =>
    cases frame with
    | dimensions n => exact ih (wrap n t)
    | argument outer name before bound =>
      let path : List Segment := ⟨name, (bound.argument t :: before).reverse⟩ :: outer
      obtain ⟨text, htext⟩ := ih (.classType path.reverse)
      exact ⟨'>' :: ';' :: text, htext.of_run_eq rfl⟩

/-- **Every state can be completed.** -/
theorem exists_completes (σ : State) : ∃ text, σ.Completes text := by
  obtain ⟨stack, point⟩ := σ
  cases point with
  | start => exact ⟨['V'], stack, .void, rfl⟩
  | done t => exact ⟨[], stack, t, rfl⟩
  | component =>
    obtain ⟨text, htext⟩ := exists_completes_deliver stack (.base .int)
    refine ⟨'I' :: text, htext.of_run_eq (run_cons ?_ text)⟩
    rw [step_component (.inl (by decide))]
    rfl
  | bounded =>
    obtain ⟨text, htext⟩ := exists_completes_deliver stack (.typeVariable "a")
    exact ⟨'T' :: 'a' :: ';' :: text, htext.of_run_eq rfl⟩
  | variableName letters =>
    obtain ⟨text, htext⟩ := exists_completes_deliver stack
      (.typeVariable (String.ofList ('a' :: letters).reverse))
    exact ⟨'a' :: ';' :: text, htext.of_run_eq rfl⟩
  | pathName letters =>
    obtain ⟨text, htext⟩ := exists_completes_deliver stack
      (.classType [⟨String.ofList ('a' :: letters).reverse, []⟩])
    exact ⟨'a' :: ';' :: text, htext.of_run_eq rfl⟩
  | innerName outer letters =>
    obtain ⟨text, htext⟩ := exists_completes_deliver stack
      (.classType (⟨String.ofList ('a' :: letters).reverse, []⟩ :: outer : List Segment).reverse)
    exact ⟨'a' :: ';' :: text, htext.of_run_eq rfl⟩
  | arguments outer name before =>
    obtain ⟨text, htext⟩ := exists_completes_deliver stack
      (.classType (⟨name, (.unbounded :: before).reverse⟩ :: outer : List Segment).reverse)
    exact ⟨'*' :: '>' :: ';' :: text, htext.of_run_eq rfl⟩
  | segmentEnd path =>
    obtain ⟨text, htext⟩ := exists_completes_deliver stack (.classType path.reverse)
    exact ⟨';' :: text, htext.of_run_eq rfl⟩

/-! ### refusals -/

/-- A run that is refused has read what stands in front of the refused character. -/
theorem run_eq_refused_iff {σ : State} {text cs : List Char} {c : Char} {reason : Refusal} :
    σ.run text = .refused reason c cs ↔
      ∃ read σ', text = read ++ c :: cs ∧ σ.run read = .ended σ' ∧ σ'.step c = .error reason := by
  constructor
  · intro h
    induction text generalizing σ with
    | nil => cases h
    | cons d text ih =>
      rw [run] at h
      cases hstep : σ.step d with
      | ok τ =>
        rw [hstep] at h
        obtain ⟨read, σ', rfl, hread, hrefused⟩ := ih h
        exact ⟨d :: read, σ', rfl, by rw [run_cons hstep, hread], hrefused⟩
      | error reason' =>
        rw [hstep] at h
        cases h
        exact ⟨[], σ, rfl, rfl, hstep⟩
  · rintro ⟨read, σ', rfl, hread, hrefused⟩
    rw [run_append, hread]
    simp only [run, hrefused]

/-- What has been read without a refusal has been so from the beginning. -/
theorem exists_ended_of_append {σ σ' : State} {front back : List Char}
    (h : σ.run (front ++ back) = .ended σ') :
    ∃ τ, σ.run front = .ended τ ∧ τ.run back = .ended σ' := by
  rw [run_append] at h
  cases hfront : σ.run front with
  | ended τ =>
    rw [hfront] at h
    exact ⟨τ, rfl, h⟩
  | refused reason c cs =>
    rw [hfront] at h
    cases h

end State

/-- The refusals that have to do with the refused character alone. -/
def Refusal.Local (reason : Refusal) : Prop := reason ≠ .trailingInput ∧ reason ≠ .emptyTypeArguments

namespace State

section Refused

variable {stack : List Frame} {c : Char} {reason : Refusal}

theorem local_of_openReference (h : openReference stack c = .error reason) : reason.Local := by
  unfold openReference at h
  split at h
  · cases h
  split at h
  · cases h
  split at h
  · cases h
  · cases h
    exact ⟨nofun, nofun⟩

theorem local_of_openType (h : openType stack c = .error reason) : reason.Local := by
  unfold openType at h
  split at h
  · cases h
  · exact local_of_openReference h

theorem local_of_closeSegment {path : List Segment} (h : closeSegment stack path c = .error reason) :
    reason.Local := by
  unfold closeSegment at h
  split at h
  · cases h
  split at h
  · cases h
  · cases h
    exact ⟨nofun, nofun⟩

theorem local_of_closeName {outer : List Segment} {name : String}
    (h : closeName stack outer name c = .error reason) : reason.Local := by
  unfold closeName at h
  split at h
  · split at h
    · cases h
    · cases h
      exact ⟨nofun, nofun⟩
  · exact local_of_closeSegment h

theorem local_of_stepComponent (h : stepComponent stack c = .error reason) : reason.Local := by
  unfold stepComponent at h
  split at h
  · split at h
    · split at h
      · cases h
      · cases h
        exact ⟨nofun, nofun⟩
    · exact local_of_openType h
  · exact local_of_openType h

theorem stepArguments_eq_error {outer : List Segment} {name : String} {before : List TypeArgument}
    (h : stepArguments stack outer name before c = .error reason) :
    reason.Local ∨ reason = .emptyTypeArguments ∧ c = '>' ∧ before = [] := by
  unfold stepArguments at h
  split at h
  · next hc =>
    split at h
    · next hbefore =>
      cases h
      exact .inr ⟨rfl, hc, List.isEmpty_iff.mp hbefore⟩
    · cases h
  left
  split at h
  · cases h
  split at h
  · cases h
  split at h
  · cases h
  · exact local_of_openReference h

/-- **Why a character is refused**: behind a whole signature every character is, and an empty list must not
be closed; the other refusals have to do with the character alone. -/
theorem step_eq_error {σ : State} (h : σ.step c = .error reason) :
    reason.Local ∨ (reason = .trailingInput ∧ ∃ t, σ.point = .done t) ∨
      (reason = .emptyTypeArguments ∧ c = '>' ∧ ∃ outer name, σ.point = .arguments outer name []) := by
  obtain ⟨stack, point⟩ := σ
  unfold step at h
  cases point with
  | start =>
    dsimp only at h
    split at h
    · cases h
    · exact .inl (local_of_openType h)
  | component => exact .inl (local_of_stepComponent h)
  | bounded => exact .inl (local_of_openReference h)
  | variableName letters =>
    left
    dsimp only at h
    split at h
    · cases h
    split at h
    · cases h
      exact ⟨nofun, nofun⟩
    split at h
    · cases h
    · cases h
      exact ⟨nofun, nofun⟩
  | pathName letters =>
    left
    dsimp only at h
    split at h
    · cases h
    split at h
    · cases h
      exact ⟨nofun, nofun⟩
    split at h
    · cases h
    · exact local_of_closeName h
  | innerName outer letters =>
    left
    dsimp only at h
    split at h
    · cases h
    split at h
    · cases h
      exact ⟨nofun, nofun⟩
    · exact local_of_closeName h
  | arguments outer name before =>
    rcases stepArguments_eq_error h with hlocal | ⟨hreason, hc, rfl⟩
    · exact .inl hlocal
    · exact .inr (.inr ⟨hreason, hc, outer, name, rfl⟩)
  | segmentEnd path => exact .inl (local_of_closeSegment h)
  | done t =>
    cases h
    exact .inr (.inl ⟨rfl, t, rfl⟩)

end Refused

end State

/-! ### viable texts -/

theorem byteLength_append (u v : List Char) : byteLength (u ++ v) = byteLength u + byteLength v := by
  induction u with
  | nil => simp [byteLength]
  | cons c u ih =>
    rw [List.cons_append, byteLength, byteLength, ih]
    omega

theorem utf8ByteSize_ofList (cs : List Char) : (String.ofList cs).utf8ByteSize = byteLength cs := by
  induction cs with
  | nil => rfl
  | cons c cs ih =>
    rw [String.ofList_cons, String.utf8ByteSize_append, String.utf8ByteSize_singleton, ih, byteLength]

namespace Signature

theorem accepted_iff {text : String} : Accepted text ↔ State.initial.Completes text.toList := by
  constructor
  · rintro ⟨t, h⟩
    obtain ⟨stack, hrun⟩ := parse_eq_ok_iff_run.mp h
    exact ⟨stack, t, hrun⟩
  · rintro ⟨stack, t, hrun⟩
    exact ⟨t, parse_eq_ok_iff_run.mpr ⟨stack, hrun⟩⟩

/-- **A text is viable exactly if it can be read without a refusal.** -/
theorem viable_iff {text : String} : Viable text ↔ ∃ σ, State.initial.run text.toList = .ended σ := by
  constructor
  · rintro ⟨more, h⟩
    obtain ⟨stack, t, hrun⟩ := accepted_iff.mp h
    rw [String.toList_append] at hrun
    obtain ⟨σ, hσ, -⟩ := State.exists_ended_of_append hrun
    exact ⟨σ, hσ⟩
  · rintro ⟨σ, hσ⟩
    obtain ⟨more, stack, t, hmore⟩ := σ.exists_completes
    refine ⟨String.ofList more, accepted_iff.mpr ⟨stack, t, ?_⟩⟩
    rw [String.toList_append, String.toList_ofList, State.run_append, hσ]
    exact hmore

theorem Accepted.viable {text : String} (h : Accepted text) : Viable text := by
  obtain ⟨stack, t, hrun⟩ := accepted_iff.mp h
  exact viable_iff.mpr ⟨_, hrun⟩

/-- With a refused character a text is not viable any more. -/
theorem not_viable_of_refused {read : List Char} {σ : State} {c : Char} {reason : Refusal}
    (hread : State.initial.run read = .ended σ) (hstep : σ.step c = .error reason) :
    ¬ Viable (String.ofList (read ++ [c])) := by
  intro h
  obtain ⟨σ', hrun⟩ := viable_iff.mp h
  have hrefused : State.initial.run (read ++ [c]) = .refused reason c [] :=
    State.run_eq_refused_iff.mpr ⟨read, σ, rfl, hread, hstep⟩
  rw [String.toList_ofList, hrefused] at hrun
  cases hrun

end Signature

/-! ### errors -/

/-- The error for a refused character with so many bytes in front of it. -/
def Refusal.errorAt (found : Char) (offset : Nat) : Refusal → SignatureError
  | unexpected expected => .unexpectedChar found offset expected
  | emptyIdentifier => .emptyIdentifier offset
  | emptyTypeArguments => .emptyTypeArguments (offset - 1)
  | tooManyDimensions => .tooManyDimensions offset
  | nestingTooDeep => .nestingTooDeep offset
  | trailingInput => .trailingInput offset

theorem Reader.errorAt_eq (r : Reader) (reason : Refusal) (found : Char) (unread : List Char) :
    r.errorAt reason found unread = reason.errorAt found (r.offsetOf unread) := by
  cases reason <;> rfl

/-- The place that an error names. -/
def SignatureError.offset? : SignatureError → Option Nat
  | empty => none
  | unexpectedEnd o | unexpectedChar _ o _ | emptyIdentifier o | emptyTypeArguments o
  | tooManyDimensions o | nestingTooDeep o | trailingInput o => some o

namespace Signature

/-- What an error says of the text in front of its place and the text behind it. -/
def Tells (front back : String) : SignatureError → Prop
  | .empty => False
  | .unexpectedEnd _ => back = "" ∧ ¬ Accepted front
  | .trailingInput _ => back ≠ "" ∧ Accepted front
  | .unexpectedChar c _ _ =>
    ∃ rest, back = String.singleton c ++ rest ∧ ¬ Viable (front ++ String.singleton c)
  | .emptyIdentifier _ | .tooManyDimensions _ | .nestingTooDeep _ =>
    ∃ c rest, back = String.singleton c ++ rest ∧ ¬ Viable (front ++ String.singleton c)
  | .emptyTypeArguments _ => ∃ rest, back = "<>" ++ rest ∧ ¬ Viable (front ++ "<>")

/-- The place of an error cuts the text between two characters, behind a viable part of it, and the error
tells what is the matter there. -/
def Locates (text : String) (e : SignatureError) : Prop :=
  ∃ front back, text = front ++ back ∧ e.offset? = some front.utf8ByteSize ∧ Viable front ∧
    Tells front back e

section Parse

variable {text : String}

theorem parse_of_ended {σ : State} (hne : text ≠ "") (hrun : State.initial.run text.toList = .ended σ)
    (hnot : ¬ Accepted text) : parse text = .error (.unexpectedEnd text.utf8ByteSize) := by
  have hlist : text.toList.isEmpty = false := by simpa using hne
  have hsize : byteLength text.toList = text.utf8ByteSize := by
    rw [← utf8ByteSize_ofList, String.ofList_toList]
  unfold parse Reader.next Reader.ofString
  rw [hlist, if_neg (by simp)]
  dsimp only
  rw [hrun, hsize]
  obtain ⟨stack, point⟩ := σ
  cases point with
  | done t => exact absurd (accepted_iff.mpr ⟨stack, t, hrun⟩) hnot
  | _ => rfl

theorem parse_of_refused {read cs : List Char} {c : Char} {σ : State} {reason : Refusal}
    (htext : text.toList = read ++ c :: cs) (hread : State.initial.run read = .ended σ)
    (hstep : σ.step c = .error reason) :
    parse text = .error (reason.errorAt c (byteLength read)) := by
  have hrun : State.initial.run text.toList = .refused reason c cs :=
    State.run_eq_refused_iff.mpr ⟨read, σ, htext, hread, hstep⟩
  have hlist : text.toList.isEmpty = false := by simp [htext]
  have hoffset : (Reader.ofString text).offsetOf (c :: cs) = byteLength read := by
    rw [Reader.offsetOf, Reader.ofString, htext, byteLength_append]
    omega
  rw [parse, Reader.next, show (Reader.ofString text).text = text.toList from rfl, hlist, if_neg (by simp)]
  rw [show (Reader.ofString text).rest = text.toList from rfl, hrun]
  dsimp only
  rw [Reader.errorAt_eq, hoffset]

/-- The two ways in which a text that is not empty can be wrong. -/
theorem parse_eq_error {e : SignatureError} (hne : text ≠ "") (h : parse text = .error e) :
    (Viable text ∧ ¬ Accepted text ∧ e = .unexpectedEnd text.utf8ByteSize) ∨
      ∃ read c cs σ reason, text.toList = read ++ c :: cs ∧ State.initial.run read = .ended σ ∧
        σ.step c = .error reason ∧ e = reason.errorAt c (byteLength read) := by
  cases hrun : State.initial.run text.toList with
  | ended σ =>
    have hnot : ¬ Accepted text := by
      rintro ⟨t, hok⟩
      rw [hok] at h
      cases h
    rw [parse_of_ended hne hrun hnot] at h
    exact .inl ⟨viable_iff.mpr ⟨σ, hrun⟩, hnot, (Except.error.inj h).symm⟩
  | refused reason c cs =>
    obtain ⟨read, σ, htext, hread, hstep⟩ := State.run_eq_refused_iff.mp hrun
    rw [parse_of_refused htext hread hstep] at h
    exact .inr ⟨read, c, cs, σ, reason, htext, hread, hstep, (Except.error.inj h).symm⟩

end Parse

/-! ### what errors tell -/

section Located

variable {text : String} {read cs : List Char} {c : Char} {σ : State} {reason : Refusal}

/-- A text cut in front of a refused character. -/
theorem eq_append_of_toList (htext : text.toList = read ++ cs) :
    text = String.ofList read ++ String.ofList cs := by
  rw [← String.ofList_append, ← htext, String.ofList_toList]

theorem viable_of_ended (hread : State.initial.run read = .ended σ) : Viable (String.ofList read) :=
  viable_iff.mpr ⟨σ, by rwa [String.toList_ofList]⟩

theorem locates_of_local (htext : text.toList = read ++ c :: cs) (hread : State.initial.run read = .ended σ)
    (hstep : σ.step c = .error reason) (hlocal : reason.Local) :
    Locates text (reason.errorAt c (byteLength read)) := by
  have hback : String.ofList (c :: cs) = String.singleton c ++ String.ofList cs := String.ofList_cons
  have hnot : ¬ Viable (String.ofList read ++ String.singleton c) := by
    have := not_viable_of_refused hread hstep
    rwa [String.ofList_append, ← String.singleton_eq_ofList] at this
  refine ⟨_, _, eq_append_of_toList htext, ?_, viable_of_ended hread, ?_⟩
  · rw [utf8ByteSize_ofList]
    cases reason with
    | emptyTypeArguments => exact absurd rfl hlocal.2
    | _ => rfl
  · cases reason with
    | trailingInput => exact absurd rfl hlocal.1
    | emptyTypeArguments => exact absurd rfl hlocal.2
    | unexpected expected => exact ⟨_, hback, hnot⟩
    | emptyIdentifier => exact ⟨c, _, hback, hnot⟩
    | tooManyDimensions => exact ⟨c, _, hback, hnot⟩
    | nestingTooDeep => exact ⟨c, _, hback, hnot⟩

theorem locates_trailingInput {t : Signature} (htext : text.toList = read ++ c :: cs)
    (hread : State.initial.run read = .ended σ) (hdone : σ.point = .done t) :
    Locates text (.trailingInput (byteLength read)) := by
  have haccepted : Accepted (String.ofList read) := by
    refine accepted_iff.mpr ⟨σ.stack, t, ?_⟩
    rw [String.toList_ofList, hread, ← hdone]
  refine ⟨_, _, eq_append_of_toList htext, ?_, haccepted.viable, by simp, haccepted⟩
  rw [utf8ByteSize_ofList]
  rfl

/-- A list to which nothing has been read has just been opened. -/
theorem read_of_empty_arguments {outer : List Segment} {name : String}
    (hread : State.initial.run read = .ended σ) (hpoint : σ.point = .arguments outer name []) :
    ∃ front, read = front ++ ['<'] := by
  obtain ⟨-, hchars⟩ := State.run_after State.initial_after hread
  refine ⟨Frame.stackChars σ.stack ++ (Segment.frontChars outer ++ name.toList), ?_⟩
  rw [List.nil_append] at hchars
  rw [← hchars, State.chars, hpoint]
  simp [Point.chars, Segment.listFrontChars, TypeArgument.tailChars]

theorem locates_emptyTypeArguments {outer : List Segment} {name : String}
    (htext : text.toList = read ++ '>' :: cs) (hread : State.initial.run read = .ended σ)
    (hpoint : σ.point = .arguments outer name [])
    (hstep : σ.step '>' = .error .emptyTypeArguments) :
    Locates text (.emptyTypeArguments (byteLength read - 1)) := by
  obtain ⟨front, rfl⟩ := read_of_empty_arguments hread hpoint
  obtain ⟨τ, hfront, -⟩ := State.exists_ended_of_append hread
  have hsize : byteLength (front ++ ['<']) - 1 = byteLength front := by
    rw [byteLength_append]
    rfl
  have hnot : ¬ Viable (String.ofList front ++ "<>") := by
    have := not_viable_of_refused hread hstep
    rwa [List.append_assoc, String.ofList_append] at this
  have hsplit : text.toList = front ++ '<' :: '>' :: cs := by rw [htext, List.append_assoc]; rfl
  refine ⟨_, _, eq_append_of_toList hsplit, ?_, viable_of_ended hfront, String.ofList cs, ?_, hnot⟩
  · rw [hsize, utf8ByteSize_ofList]
    rfl
  · show String.ofList (['<', '>'] ++ cs) = "<>" ++ String.ofList cs
    exact String.ofList_append

theorem locates_of_refused (htext : text.toList = read ++ c :: cs)
    (hread : State.initial.run read = .ended σ) (hstep : σ.step c = .error reason) :
    Locates text (reason.errorAt c (byteLength read)) := by
  rcases State.step_eq_error hstep with hlocal | ⟨rfl, t, hdone⟩ | ⟨rfl, rfl, outer, name, hpoint⟩
  · exact locates_of_local htext hread hstep hlocal
  · exact locates_trailingInput htext hread hdone
  · exact locates_emptyTypeArguments htext hread hpoint hstep

end Located

section Main

variable {text : String}

theorem locates_of_parse {e : SignatureError} (hne : text ≠ "") (h : parse text = .error e) :
    Locates text e := by
  rcases parse_eq_error hne h with ⟨hviable, hnot, rfl⟩ | ⟨read, c, cs, σ, reason, htext, hread, hstep, he⟩
  · exact ⟨text, "", by simp, rfl, hviable, rfl, hnot⟩
  · rw [he]
    exact locates_of_refused htext hread hstep

/-- A text ends too early exactly if more of it could be a signature. -/
theorem parse_eq_unexpectedEnd_iff (hne : text ≠ "") (o : Nat) :
    parse text = .error (.unexpectedEnd o) ↔
      Viable text ∧ ¬ Accepted text ∧ o = text.utf8ByteSize := by
  constructor
  · intro h
    rcases parse_eq_error hne h with ⟨hviable, hnot, he⟩ | ⟨read, c, cs, σ, reason, -, -, -, he⟩
    · exact ⟨hviable, hnot, SignatureError.unexpectedEnd.inj he⟩
    · cases reason <;> cases he
  · rintro ⟨hviable, hnot, rfl⟩
    obtain ⟨σ, hrun⟩ := viable_iff.mp hviable
    exact parse_of_ended hne hrun hnot

/-- Behind a whole signature anything is too much. -/
theorem parse_append_of_accepted {front back : String} (h : Accepted front) (hback : back ≠ "") :
    parse (front ++ back) = .error (.trailingInput front.utf8ByteSize) := by
  obtain ⟨stack, t, hrun⟩ := accepted_iff.mp h
  obtain ⟨c, cs, hcs⟩ : ∃ c cs, back.toList = c :: cs :=
    List.exists_cons_of_ne_nil (by simpa using hback)
  have htext : (front ++ back).toList = front.toList ++ c :: cs := by rw [String.toList_append, hcs]
  have hstep : State.step ⟨stack, .done t⟩ c = .error .trailingInput := rfl
  rw [parse_of_refused htext hrun hstep, ← utf8ByteSize_ofList, String.ofList_toList]
  rfl

theorem parse_eq_trailingInput_iff (hne : text ≠ "") (o : Nat) :
    parse text = .error (.trailingInput o) ↔
      ∃ front back, text = front ++ back ∧ Accepted front ∧ back ≠ "" ∧ o = front.utf8ByteSize := by
  constructor
  · intro h
    obtain ⟨front, back, htext, hoffset, -, hback, haccepted⟩ := locates_of_parse hne h
    exact ⟨front, back, htext, haccepted, hback, Option.some.inj hoffset⟩
  · rintro ⟨front, back, rfl, haccepted, hback, rfl⟩
    exact parse_append_of_accepted haccepted hback

/-- An error that is not about the end is there to stay. -/
theorem parse_append_of_error {e : SignatureError} (hne : text ≠ "") (h : parse text = .error e)
    (hend : ∀ o, e ≠ .unexpectedEnd o) (more : String) : parse (text ++ more) = .error e := by
  rcases parse_eq_error hne h with ⟨-, -, rfl⟩ | ⟨read, c, cs, σ, reason, htext, hread, hstep, rfl⟩
  · exact absurd rfl (hend _)
  · have hmore : (text ++ more).toList = read ++ c :: (cs ++ more.toList) := by
      rw [String.toList_append, htext, List.append_assoc]
      rfl
    exact parse_of_refused hmore hread hstep

/-- No whole signature begins another one. -/
theorem eq_empty_of_accepted_append {front back : String} (h : Accepted front)
    (happend : Accepted (front ++ back)) : back = "" := by
  by_cases hback : back = ""
  · exact hback
  · obtain ⟨t, ht⟩ := happend
    rw [parse_append_of_accepted h hback] at ht
    cases ht

end Main

/-- **Every error locates what is wrong**: its place is behind a viable part of the text, and it tells why
the text behind it cannot go on so.  A viable text that is none itself ends too early; a signature with
something behind it has trailing input.  So no signature begins another one, and an error that is not about
the end stays whatever is put behind the text. -/
theorem parse_error_locates {text : String} (hne : text ≠ "") :
    (∀ e, parse text = .error e → Locates text e) ∧
      (∀ o, parse text = .error (.unexpectedEnd o) ↔
        Viable text ∧ ¬ Accepted text ∧ o = text.utf8ByteSize) ∧
      (∀ o, parse text = .error (.trailingInput o) ↔
        ∃ front back, text = front ++ back ∧ Accepted front ∧ back ≠ "" ∧ o = front.utf8ByteSize) ∧
      (∀ more, Accepted text → Accepted (text ++ more) → more = "") ∧
      ∀ e, parse text = .error e → (∀ o, e ≠ .unexpectedEnd o) →
        ∀ more, parse (text ++ more) = .error e :=
  ⟨fun _ h => locates_of_parse hne h, parse_eq_unexpectedEnd_iff hne, parse_eq_trailingInput_iff hne,
    fun _ => eq_empty_of_accepted_append, fun _ => parse_append_of_error hne⟩

/-- An empty list is noticed at its end and reported at its beginning. -/
theorem located_empty_arguments :
    "La<>;" ≠ "" ∧ parse "La<>;" = .error (.emptyTypeArguments 2) ∧
      (∃ front back, "La<>;" = front ++ back ∧ some 2 = some front.utf8ByteSize ∧ Viable front ∧
        Tells front back (.emptyTypeArguments 2)) ∧
      ∀ more, parse ("La<>;" ++ more) = .error (.emptyTypeArguments 2) := by
  have hne : "La<>;" ≠ "" := by decide
  have herror : parse "La<>;" = .error (.emptyTypeArguments 2) := rfl
  obtain ⟨hlocates, -, -, -, hstays⟩ := parse_error_locates hne
  exact ⟨hne, herror, hlocates _ herror, hstays _ herror nofun⟩

end Signature

end ClassMetadata
