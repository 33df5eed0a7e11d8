import ClassMetadata.Proofs.Signature.WellFormed

/-!
# What a reading state holds

A state has read a text and has checked it as far as it goes.  Both are said here of the state alone.

* `State.chars`: the text that a state has read, spelled out from its frames and its point;
* `State.Valid`: everything closed in a state is legal, and there is room for what is open;
* `State.After cs`: a valid state that has read `cs`.

Main facts: `step_after`, **a step that is not refused adds its character to the text and keeps the state
valid**, and `run_after`, the same for a whole run.
-/

namespace ClassMetadata

/-! ### the text of a class path -/

/-- The segments of a path with dots between them. -/
def Segment.pathChars : List Segment → List Char
  | [] => []
  | segment :: path => segment.chars ++ innerChars path

theorem Signature.chars_classType (path : List Segment) :
    (Signature.classType path).chars = 'L' :: (Segment.pathChars path ++ [';']) := by
  cases path <;> simp [Signature.chars, Segment.pathChars]

theorem Segment.pathChars_append_singleton {path : List Segment} (h : path ≠ []) (s : Segment) :
    pathChars (path ++ [s]) = pathChars path ++ '.' :: s.chars := by
  cases path with
  | nil => exact absurd rfl h
  | cons first inner => simp [pathChars, innerChars_append, innerChars]

/-- What stands in front of the next name, behind closed segments (innermost first). -/
def Segment.frontChars : List Segment → List Char
  | [] => ['L']
  | s :: outer => 'L' :: (pathChars (s :: outer).reverse ++ ['.'])

theorem Segment.frontChars_of_ne_nil {outer : List Segment} (h : outer ≠ []) :
    frontChars outer = 'L' :: (pathChars outer.reverse ++ ['.']) := by
  cases outer with
  | nil => exact absurd rfl h
  | cons s outer => rfl

theorem Segment.frontChars_append_chars (outer : List Segment) (s : Segment) :
    frontChars outer ++ s.chars = 'L' :: pathChars (s :: outer).reverse := by
  cases outer with
  | nil => simp [frontChars, pathChars, innerChars]
  | cons o outer =>
    rw [List.reverse_cons (a := s), pathChars_append_singleton (by simp)]
    simp [frontChars]

/-- An argument list as far as it is read, with the path in front of it. -/
def Segment.listFrontChars (outer : List Segment) (name : String) (before : List TypeArgument) :
    List Char :=
  frontChars outer ++ name.toList ++ '<' :: TypeArgument.tailChars before.reverse

/-! ### the text of a state -/

def Bound.sign : Bound → List Char
  | exactly => []
  | upper => ['+']
  | lower => ['-']

theorem Bound.chars_argument (bound : Bound) (t : Signature) :
    (bound.argument t).chars = bound.sign ++ t.chars := by
  cases bound <;> rfl

def Frame.chars : Frame → List Char
  | .dimensions n => List.replicate n '['
  | .argument outer name before bound => Segment.listFrontChars outer name before ++ bound.sign

/-- The text of the open frames, innermost frame last. -/
def Frame.stackChars : List Frame → List Char
  | [] => []
  | frame :: stack => stackChars stack ++ frame.chars

def Point.chars : Point → List Char
  | .start | .component | .bounded => []
  | .variableName letters => 'T' :: letters.reverse
  | .pathName letters => 'L' :: letters.reverse
  | .innerName outer letters => Segment.frontChars outer ++ letters.reverse
  | .arguments outer name before => Segment.listFrontChars outer name before
  | .segmentEnd path => 'L' :: Segment.pathChars path.reverse
  | .done t => t.chars

/-- The text that a state has read. -/
def State.chars (σ : State) : List Char := Frame.stackChars σ.stack ++ σ.point.chars

/-! ### valid states -/

/-- Whether the innermost open type is an array. -/
def Frame.InArray : List Frame → Prop
  | .dimensions _ :: _ => True
  | _ => False

/-- Whether the innermost open type is an argument. -/
def Frame.InList : List Frame → Prop
  | .argument .. :: _ => True
  | _ => False

/-- Closed segments, innermost first, below so many argument lists. -/
structure Segment.Closed (depth : Nat) (path : List Segment) : Prop where
  names : NamesLegal path.reverse
  arguments : ∀ s ∈ path, ∀ a ∈ s.arguments, a.Fits (depth + 1)

/-- An open argument list, below so many others. -/
structure Segment.ListOpen (depth : Nat) (outer : List Segment) (name : String)
    (before : List TypeArgument) : Prop where
  room : depth < maxArgumentNesting
  closed : Closed depth (⟨name, []⟩ :: outer)
  before : ∀ a ∈ before, a.Fits (depth + 1)

/-- Open frames in good order.  An array is never the component of another one: its brackets go to the
frame that is there already. -/
def Frame.StackValid : List Frame → Prop
  | [] => True
  | .dimensions n :: stack => 1 ≤ n ∧ n ≤ maxDimensions ∧ ¬ InArray stack ∧ StackValid stack
  | .argument outer name before _ :: stack =>
    Segment.ListOpen (State.nesting stack) outer name before ∧ StackValid stack

/-- The letters of a path name that is being read: closed pieces, and the letters of the open one. -/
def PathLetters (letters : List Char) : Prop :=
  ∃ pieces part, (∀ p ∈ pieces, IsIdentifier p) ∧ (∀ c ∈ part, isDelimiter c = false) ∧
    letters = slashed pieces ++ part

namespace PathLetters

variable {letters : List Char} {c : Char}

theorem letter (h : PathLetters letters) (hc : isDelimiter c = false) : PathLetters (letters ++ [c]) := by
  obtain ⟨pieces, part, hp, hpart, rfl⟩ := h
  refine ⟨pieces, part ++ [c], hp, ?_, by simp⟩
  intro d hd
  rcases List.mem_append.1 hd with hd | hd
  · exact hpart d hd
  · rwa [List.mem_singleton.1 hd]

/-- The open piece is an identifier when something has been read since the last slash. -/
theorem closed (h : PathLetters letters.reverse) (hne : letters ≠ []) (hslash : letters.head? ≠ some '/') :
    ∃ pieces last, (∀ p ∈ pieces, IsIdentifier p) ∧ IsIdentifier last ∧
      letters.reverse = slashed pieces ++ last.toList := by
  obtain ⟨pieces, part, hp, hpart, he⟩ := h
  refine ⟨pieces, String.ofList part, hp, ⟨?_, by simpa using hpart⟩, by simpa using he⟩
  intro hempty
  obtain rfl : part = [] := by simpa [← String.toList_inj] using hempty
  -- what stands in front of an empty piece is nothing at all or ends with a slash
  rw [List.append_nil, List.reverse_eq_iff] at he
  cases hrev : pieces.reverse with
  | nil => exact hne (by simp [he, slashed, List.reverse_eq_nil_iff.1 hrev])
  | cons p rest =>
    rw [List.reverse_eq_cons_iff] at hrev
    exact hslash (by simp [he, slashed, hrev])

theorem isPathName (h : PathLetters letters.reverse) (hne : letters ≠ [])
    (hslash : letters.head? ≠ some '/') : IsPathName (String.ofList letters.reverse) := by
  obtain ⟨pieces, last, hp, hl, he⟩ := h.closed hne hslash
  exact isPathName_iff.2 ⟨pieces, last, hp, hl, by rwa [String.toList_ofList]⟩

theorem slash (h : PathLetters letters.reverse) (hne : letters ≠ []) (hslash : letters.head? ≠ some '/') :
    PathLetters (letters.reverse ++ ['/']) := by
  obtain ⟨pieces, last, hp, hl, he⟩ := h.closed hne hslash
  refine ⟨pieces ++ [last], [], ?_, by simp, by simp [he, slashed]⟩
  intro p h
  rcases List.mem_append.1 h with h | h
  · exact hp p h
  · rwa [List.mem_singleton.1 h]

end PathLetters

def Point.Valid (stack : List Frame) : Point → Prop
  | .start => stack = []
  | .component => Frame.InArray stack
  | .bounded => ¬ Frame.InArray stack
  | .variableName letters => ∀ c ∈ letters, isDelimiter c = false
  | .pathName letters => PathLetters letters.reverse
  | .innerName outer letters =>
    Segment.Closed (State.nesting stack) outer ∧ ∀ c ∈ letters, isDelimiter c = false
  | .arguments outer name before => Segment.ListOpen (State.nesting stack) outer name before
  | .segmentEnd path => Segment.Closed (State.nesting stack) path
  | .done t => stack = [] ∧ t.WellFormed

/-- A state in which nothing illegal is closed and nothing open has used up its room. -/
def State.Valid (σ : State) : Prop := Frame.StackValid σ.stack ∧ σ.point.Valid σ.stack

/-- A valid state that has read `cs`. -/
structure State.After (cs : List Char) (σ : State) : Prop where
  valid : σ.Valid
  chars_eq : σ.chars = cs

/-! ### delivering a type -/

namespace Frame

theorem nesting_le {stack : List Frame} (h : StackValid stack) :
    State.nesting stack ≤ maxArgumentNesting := by
  induction stack with
  | nil => exact Nat.zero_le _
  | cons frame stack ih =>
    cases frame with
    | dimensions n => exact ih h.2.2.2
    | argument outer name before bound => exact h.1.room

/-- Whether a finished type can go to the frame that waits for it. -/
def Accepts (stack : List Frame) (t : Signature) : Prop :=
  (InArray stack → t.dimensions = 0) ∧ (InList stack → t.IsReference)

end Frame

namespace State

theorem chars_wrap (n : Nat) (t : Signature) : (wrap n t).chars = List.replicate n '[' ++ t.chars := by
  induction n with
  | zero => rfl
  | succ n ih => simp [wrap, Signature.chars, List.replicate_succ, ih]

theorem dimensions_wrap (n : Nat) (t : Signature) : (wrap n t).dimensions = n + t.dimensions := by
  induction n with
  | zero => simp [wrap]
  | succ n ih => simp [wrap, Signature.dimensions, ih]; omega

theorem argumentNesting_wrap (n : Nat) (t : Signature) :
    (wrap n t).argumentNesting = t.argumentNesting := by
  induction n with
  | zero => rfl
  | succ n ih => simp [wrap, Signature.argumentNesting, ih]

theorem legal_wrap {n : Nat} {t : Signature} (ht : t.Legal) (hn : n + t.dimensions ≤ maxDimensions) :
    (wrap n t).Legal := by
  induction n with
  | zero => exact ht
  | succ n ih =>
    refine ⟨?_, ih (by omega)⟩
    rw [dimensions_wrap]
    omega

/-- A type delivered to frames that can take it is read in full and leaves a valid state. -/
theorem deliver_after : ∀ {stack : List Frame} {t : Signature}, Frame.StackValid stack →
    t.Fits (nesting stack) → Frame.Accepts stack t →
    (deliver t stack).After (Frame.stackChars stack ++ t.chars)
  | [], t, _, ht, _ => by
    refine ⟨⟨trivial, rfl, .inr ⟨ht.1, ?_⟩⟩, rfl⟩
    simpa [nesting] using ht.2
  | .dimensions n :: stack, t, ⟨h1, hn, hout, hs⟩, ht, ha => by
    have hd : t.dimensions = 0 := ha.1 trivial
    have hw : (wrap n t).Fits (nesting stack) := by
      refine ⟨legal_wrap ht.1 (by omega), ?_⟩
      rw [argumentNesting_wrap]
      exact ht.2
    have hr : (wrap n t).IsReference := by
      obtain ⟨m, rfl⟩ : ∃ m, n = m + 1 := ⟨n - 1, by omega⟩
      trivial
    obtain ⟨hv, hc⟩ := deliver_after hs hw ⟨fun h => absurd h hout, fun _ => hr⟩
    refine ⟨hv, ?_⟩
    rw [deliver, hc, chars_wrap, Frame.stackChars, Frame.chars, List.append_assoc]
  | .argument outer name before bound :: stack, t, ⟨ho, hs⟩, ht, ha => by
    have hr : t.IsReference := ha.2 trivial
    have hnew : (bound.argument t).Fits (nesting stack + 1) := by
      cases bound <;> exact ⟨⟨hr, ht.1⟩, ht.2⟩
    refine ⟨⟨hs, ho.room, ho.closed, List.forall_mem_cons.2 ⟨hnew, ho.before⟩⟩, ?_⟩
    simp [deliver, chars, Point.chars, Frame.stackChars, Frame.chars, Segment.listFrontChars,
        TypeArgument.tailChars_append, TypeArgument.tailChars, Bound.chars_argument]

/-! ### one character -/

section Step

variable {stack : List Frame} {c : Char} {σ : State}

theorem openReference_after (hs : Frame.StackValid stack) (hc : c = '[' → ¬ Frame.InArray stack)
    (h : openReference stack c = .ok σ) : σ.After (Frame.stackChars stack ++ [c]) := by
  unfold openReference at h
  split at h
  · next hL =>
    obtain rfl := Except.ok.inj h
    exact ⟨⟨hs, [], [], by simp, by simp, rfl⟩, by simp [chars, Point.chars, hL]⟩
  split at h
  · next hT =>
    obtain rfl := Except.ok.inj h
    exact ⟨⟨hs, by simp [Point.Valid]⟩, by simp [chars, Point.chars, hT]⟩
  split at h
  · next hA =>
    obtain rfl := Except.ok.inj h
    refine ⟨⟨⟨Nat.le_refl 1, by decide, hc hA, hs⟩, trivial⟩, ?_⟩
    simp [chars, Point.chars, Frame.stackChars, Frame.chars, hA]
  · exact absurd h (by simp)

theorem openType_after (hs : Frame.StackValid stack) (hc : c = '[' → ¬ Frame.InArray stack)
    (hl : ¬ Frame.InList stack) (h : openType stack c = .ok σ) :
    σ.After (Frame.stackChars stack ++ [c]) := by
  unfold openType at h
  split at h
  · next t ht =>
    obtain rfl := Except.ok.inj h
    rw [BaseType.ofDescriptor?_eq_some_iff] at ht
    subst ht
    refine deliver_after (t := .base t) hs ⟨trivial, ?_⟩ ⟨fun _ => rfl, fun h => absurd h hl⟩
    exact Frame.nesting_le hs
  · exact openReference_after hs hc h

theorem closeSegment_after {path : List Segment} (hs : Frame.StackValid stack)
    (hp : Segment.Closed (nesting stack) path) (h : closeSegment stack path c = .ok σ) :
    σ.After (Frame.stackChars stack ++ ('L' :: Segment.pathChars path.reverse ++ [c])) := by
  unfold closeSegment at h
  split at h
  · next hc =>
    obtain rfl := Except.ok.inj h
    have hfit : (Signature.classType path.reverse).Fits (nesting stack) := by
      rw [Signature.fits_classType (Frame.nesting_le hs)]
      exact ⟨hp.names, fun s h => hp.arguments s (List.mem_reverse.1 h)⟩
    have := deliver_after hs hfit ⟨fun _ => rfl, fun _ => trivial⟩
    rwa [Signature.chars_classType, ← hc] at this
  split at h
  · next hc =>
    obtain rfl := Except.ok.inj h
    have hne : path ≠ [] := by
      rintro rfl
      exact hp.names
    refine ⟨⟨hs, hp, by simp⟩, ?_⟩
    simp [chars, Point.chars, Segment.frontChars_of_ne_nil hne, hc]
  · exact absurd h (by simp)

theorem closeName_after {outer : List Segment} {name : String} (hs : Frame.StackValid stack)
    (hp : Segment.Closed (nesting stack) (⟨name, []⟩ :: outer))
    (h : closeName stack outer name c = .ok σ) :
    σ.After (Frame.stackChars stack ++ (Segment.frontChars outer ++ name.toList ++ [c])) := by
  unfold closeName at h
  split at h
  · next hc =>
    split at h
    · next hroom =>
      obtain rfl := Except.ok.inj h
      refine ⟨⟨hs, hroom, hp, by simp⟩, ?_⟩
      simp [chars, Point.chars, Segment.listFrontChars, TypeArgument.tailChars, hc]
    · exact absurd h (by simp)
  · have := closeSegment_after hs hp h
    rw [← Segment.frontChars_append_chars] at this
    simpa [Segment.chars, TypeArgument.listChars] using this

theorem stepArguments_after {outer : List Segment} {name : String} {before : List TypeArgument}
    (hs : Frame.StackValid stack) (ho : Segment.ListOpen (nesting stack) outer name before)
    (h : stepArguments stack outer name before c = .ok σ) :
    σ.After (Frame.stackChars stack ++ (Segment.listFrontChars outer name before ++ [c])) := by
  have hwait : ∀ bound, Frame.StackValid (Frame.argument outer name before bound :: stack) :=
    fun _ => ⟨ho, hs⟩
  unfold stepArguments at h
  split at h
  · -- the end of the list
    next hc =>
    split at h
    · exact absurd h (by simp)
    · next hb =>
      obtain rfl := Except.ok.inj h
      obtain ⟨a, rest, hrev⟩ : ∃ a rest, before.reverse = a :: rest :=
        List.exists_cons_of_ne_nil (by simpa using hb)
      refine ⟨⟨hs, ?_, ?_⟩, ?_⟩
      · simpa [Segment.namesLegal_append_singleton] using ho.closed.names
      · refine List.forall_mem_cons.2 ⟨fun a ha => ho.before a (List.mem_reverse.1 ha), ?_⟩
        exact (List.forall_mem_cons.1 ho.closed.arguments).2
      · simp only [chars, Point.chars, ← Segment.frontChars_append_chars, Segment.chars,
          Segment.listFrontChars, hrev, TypeArgument.listChars, TypeArgument.tailChars, hc]
        simp
  split at h
  · next hc =>
    obtain rfl := Except.ok.inj h
    have hnew : TypeArgument.unbounded.Fits (nesting stack + 1) := ⟨trivial, ho.room⟩
    refine ⟨⟨hs, ho.room, ho.closed, List.forall_mem_cons.2 ⟨hnew, ho.before⟩⟩, ?_⟩
    simp [chars, Point.chars, Segment.listFrontChars, TypeArgument.tailChars_append,
        TypeArgument.tailChars, TypeArgument.chars, hc]
  split at h
  · next hc =>
    obtain rfl := Except.ok.inj h
    refine ⟨⟨hwait .upper, id⟩, ?_⟩
    simp [chars, Point.chars, Frame.stackChars, Frame.chars, Bound.sign, hc]
  split at h
  · next hc =>
    obtain rfl := Except.ok.inj h
    refine ⟨⟨hwait .lower, id⟩, ?_⟩
    simp [chars, Point.chars, Frame.stackChars, Frame.chars, Bound.sign, hc]
  · have := openReference_after (hwait .exactly) (fun _ => id) h
    simpa [Frame.stackChars, Frame.chars, Bound.sign] using this

theorem stepComponent_after (hs : Frame.StackValid stack) (ha : Frame.InArray stack)
    (h : stepComponent stack c = .ok σ) : σ.After (Frame.stackChars stack ++ [c]) := by
  obtain ⟨n, below, rfl⟩ : ∃ n below, stack = .dimensions n :: below := by
    match stack, ha with
    | .dimensions n :: below, _ => exact ⟨n, below, rfl⟩
  unfold stepComponent at h
  dsimp only at h
  split at h
  · next hc =>
    split at h
    · next hn =>
      obtain rfl := Except.ok.inj h
      refine ⟨⟨⟨by omega, hn, hs.2.2⟩, trivial⟩, ?_⟩
      simp [chars, Point.chars, Frame.stackChars, Frame.chars, List.replicate_succ', hc]
    · exact absurd h (by simp)
  · next hc => exact openType_after hs (fun h => absurd h hc) id h

/-- **A character that is not refused is added to the text, and the state stays valid.** -/
theorem step_after {σ σ' : State} {cs : List Char} {c : Char} (hσ : σ.After cs) (h : σ.step c = .ok σ') :
    σ'.After (cs ++ [c]) := by
  obtain ⟨⟨hs, hp⟩, rfl⟩ := hσ
  obtain ⟨stack, point⟩ := σ
  simp only [chars, List.append_assoc] at *
  unfold step at h
  cases point with
  | start =>
    obtain rfl : stack = [] := hp
    dsimp only at h
    split at h
    · next hc =>
      obtain rfl := Except.ok.inj h
      exact ⟨⟨trivial, rfl, .inl rfl⟩, by simp [chars, Point.chars, Signature.chars, Frame.stackChars, hc]⟩
    · exact openType_after hs (fun _ => id) id h
  | component => exact stepComponent_after hs hp h
  | bounded => exact openReference_after hs (fun _ => hp) h
  | variableName letters =>
    dsimp only at h
    split at h
    · next hc =>
      obtain rfl := Except.ok.inj h
      exact ⟨⟨hs, List.forall_mem_cons.2 ⟨by simpa using hc, hp⟩⟩, by simp [chars, Point.chars]⟩
    split at h
    · exact absurd h (by simp)
    split at h
    · next hne hc =>
      obtain rfl := Except.ok.inj h
      have hfit : (Signature.typeVariable (String.ofList letters.reverse)).Fits (nesting stack) := by
        refine ⟨⟨?_, ?_⟩, Frame.nesting_le hs⟩
        · simpa [← String.toList_inj] using hne
        · simpa [Point.Valid] using hp
      have := deliver_after hs hfit ⟨fun _ => rfl, fun _ => trivial⟩
      simpa [Signature.chars, Point.chars, hc] using this
    · exact absurd h (by simp)
  | pathName letters =>
    have hp : PathLetters letters.reverse := hp
    dsimp only at h
    split at h
    · next hc =>
      obtain rfl := Except.ok.inj h
      refine ⟨⟨hs, ?_⟩, by simp [chars, Point.chars]⟩
      simpa [Point.Valid] using hp.letter (by simpa using hc)
    split at h
    · exact absurd h (by simp)
    next hclosed =>
    simp only [Bool.or_eq_true, List.isEmpty_iff, beq_iff_eq, not_or] at hclosed
    split at h
    · next hc =>
      obtain rfl := Except.ok.inj h
      refine ⟨⟨hs, ?_⟩, by simp [chars, Point.chars]⟩
      simpa [Point.Valid, hc] using hp.slash hclosed.1 hclosed.2
    · have hseg : Segment.Closed (nesting stack) [⟨String.ofList letters.reverse, []⟩] :=
        ⟨⟨hp.isPathName hclosed.1 hclosed.2, by simp⟩, by simp⟩
      simpa [Point.chars, Segment.frontChars] using closeName_after hs hseg h
  | innerName outer letters =>
    dsimp only at h
    split at h
    · next hc =>
      obtain rfl := Except.ok.inj h
      exact ⟨⟨hs, hp.1, List.forall_mem_cons.2 ⟨by simpa using hc, hp.2⟩⟩, by simp [chars, Point.chars]⟩
    split at h
    · exact absurd h (by simp)
    · next hne =>
      have hclosed : Segment.Closed (nesting stack) (⟨String.ofList letters.reverse, []⟩ :: outer) := by
        refine ⟨?_, ?_⟩
        · rw [List.reverse_cons, Segment.namesLegal_append_singleton]
          refine .inr ⟨hp.1.names, ?_, by simpa using hp.2⟩
          simpa [← String.toList_inj] using hne
        · simpa using hp.1.arguments
      simpa [Point.chars] using closeName_after hs hclosed h
  | arguments outer name before => exact stepArguments_after hs hp h
  | segmentEnd path => simpa [Point.chars] using closeSegment_after hs hp h
  | done t => exact absurd h (by simp)

end Step

/-! ### a whole run -/

theorem initial_after : initial.After [] := ⟨⟨trivial, rfl⟩, rfl⟩

/-- **A run to the end of a text has read the text and leaves a valid state.** -/
theorem run_after {σ σ' : State} {cs text : List Char} (hσ : σ.After cs) (h : σ.run text = .ended σ') :
    σ'.After (cs ++ text) := by
  induction text generalizing σ cs with
  | nil =>
    obtain rfl : σ = σ' := by simpa [run] using h
    simpa using hσ
  | cons c text ih =>
    unfold run at h
    split at h
    · next σ₁ hstep =>
      have := ih (step_after hσ hstep) h
      rwa [List.append_assoc] at this
    · exact absurd h (by simp)

end State

end ClassMetadata
