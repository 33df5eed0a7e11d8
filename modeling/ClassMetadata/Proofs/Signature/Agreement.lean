import ClassMetadata.Proofs.Signature.Descent

/-!
# Outcomes that agree with a halt

The two readers of signatures are followed along one text.  The run of the machine is fixed, and with it where
it halts; `Agrees` says of an outcome of the descent that it is right for this halt:

* a failure is the one that the machine would report, at the same place, and all argument lists are left;
* behind a success the machine still halts there, from a state that has what was read.

What the machine does next is all that is known of its state: `Awaits next` says that the next character goes
to `next`, or that the text ends too early.  Every function of the descent takes one such condition to
another; here this is shown of those that read names.
-/

namespace ClassMetadata

/-- A state in front of more characters. -/
def State.Unfinished (σ : State) : Prop := ∀ t, σ.point ≠ .done t

/-- The halt behind a text whose first character goes to `next`. -/
def Halt.Awaits (next : Char → Except Refusal State) : List Char → Halt → Prop
  | [], h => ∃ σ : State, σ.Unfinished ∧ h = .ended σ
  | c :: cs, h =>
    h = match next c with
      | .ok σ => σ.run cs
      | .error reason => .refused reason c cs

/-- A place in a text of so many bytes, inside so many argument lists. -/
structure Place.At (total depth : Nat) (p : Place) : Prop where
  depth_eq : p.depth = depth
  size_eq : p.position + byteLength p.rest = total

theorem Place.At.bump {total depth o d : Nat} {c : Char} {cs : List Char}
    (hp : Place.At total depth ⟨c :: cs, o, d⟩) : Place.At total depth ⟨cs, o + c.utf8Size, d⟩ := by
  refine ⟨hp.depth_eq, ?_⟩
  rw [← hp.size_eq]
  simp only [byteLength]
  omega

namespace Halt

variable {h : Halt} {next : Char → Except Refusal State} {rest cs : List Char} {c : Char}

theorem Awaits.of_run {σ : State} (hh : h = σ.run rest) (hσ : σ.Unfinished) : Awaits σ.step rest h := by
  subst hh
  cases rest with
  | nil => exact ⟨σ, hσ, rfl⟩
  | cons c cs =>
    cases hstep : σ.step c <;> simp only [Awaits, State.run, hstep]

theorem Awaits.congr {next' : Char → Except Refusal State} (ha : Awaits next rest h)
    (hnext : ∀ c, rest.head? = some c → next c = next' c) : Awaits next' rest h := by
  cases rest with
  | nil => exact ha
  | cons c cs =>
    rw [Awaits, ← hnext c rfl]
    exact ha

theorem Awaits.eq_run {σ : State} (ha : Awaits next (c :: cs) h) (hnext : next c = .ok σ) : h = σ.run cs := by
  rwa [Awaits, hnext] at ha

theorem Awaits.eq_refused {reason : Refusal} (ha : Awaits next (c :: cs) h)
    (hnext : next c = .error reason) : h = .refused reason c cs := by
  rwa [Awaits, hnext] at ha

end Halt

namespace Descent

variable {α β : Type}

/-! ### outcomes -/

/-- An outcome that is right for the halt of a machine on a text of so many bytes: a success as `Post` has
it, or the failure that the machine reports. -/
inductive Agrees (total depth : Nat) (h : Halt) (Post : α → List Char → Prop) :
    Except Failure α × Place → Prop
  | ok {a : α} {q : Place} : q.At total depth → Post a q.rest → Agrees total depth h Post (.ok a, q)
  | ended {q : Place} {σ : State} : q.At total depth → q.rest = [] → σ.Unfinished → h = .ended σ →
    Agrees total depth h Post (.error (.error (.unexpectedEnd total)), q)
  | refused {q : Place} {reason : Refusal} {c : Char} {behind : List Char} : q.At total depth →
    q.rest = (if reason.consumes then behind else c :: behind) → h = .refused reason c behind →
    Agrees total depth h Post
      (.error (.error (reason.errorAt c (total - byteLength (c :: behind)))), q)

theorem outcome_bind (m : Reading α) (f : α → Reading β) (p : Place) :
    outcome (m >>= f) p = outcome (ExceptT.bindCont (m := StateM Place) f (outcome m p).1) (outcome m p).2 :=
  rfl

theorem outcome_ite {b : Prop} [Decidable b] (m n : Reading α) (p : Place) :
    outcome (if b then m else n) p = if b then outcome m p else outcome n p := by
  split <;> rfl

section Basic

variable {total depth o d : Nat} {h : Halt} {Post : α → List Char → Prop} {c : Char} {cs : List Char}
  {next : Char → Except Refusal State}

theorem Agrees.bind {Mid : β → List Char → Prop} {m : Reading β} {f : β → Reading α} {p : Place}
    (hm : Agrees total depth h Mid (outcome m p))
    (hf : ∀ b q, q.At total depth → Mid b q.rest → Agrees total depth h Post (outcome (f b) q)) :
    Agrees total depth h Post (outcome (m >>= f) p) := by
  rw [outcome_bind]
  generalize outcome m p = result at hm ⊢
  cases hm with
  | ok hq hb => exact hf _ _ hq hb
  | ended hq hrest hσ hh => exact .ended hq hrest hσ hh
  | refused hq hrest hh => exact .refused hq hrest hh

theorem Agrees.mono {Post' : α → List Char → Prop} {result : Except Failure α × Place}
    (hm : Agrees total depth h Post result) (himp : ∀ a rest, Post a rest → Post' a rest) :
    Agrees total depth h Post' result := by
  cases hm with
  | ok hq ha => exact .ok hq (himp _ _ ha)
  | ended hq hrest hσ hh => exact .ended hq hrest hσ hh
  | refused hq hrest hh => exact .refused hq hrest hh

/-- At the end of the text. -/
theorem Agrees.atEnd (hp : Place.At total depth ⟨[], o, d⟩) (ha : h.Awaits next []) :
    Agrees total depth h Post (outcome (fail (.unexpectedEnd o)) ⟨[], o, d⟩) := by
  obtain ⟨σ, hσ, hh⟩ := ha
  obtain rfl : o = total := hp.size_eq
  exact .ended hp rfl hσ hh

/-- In front of a character that is refused. -/
theorem Agrees.front {reason : Refusal} (hp : Place.At total depth ⟨c :: cs, o, d⟩)
    (ha : h.Awaits next (c :: cs)) (hnext : next c = .error reason) (hconsumes : reason.consumes = false) :
    Agrees total depth h Post (outcome (fail (reason.errorAt c o)) ⟨c :: cs, o, d⟩) := by
  have ho : o = total - byteLength (c :: cs) := Nat.eq_sub_of_add_eq hp.size_eq
  rw [ho] at hp ⊢
  exact .refused hp (by rw [hconsumes]; rfl) (ha.eq_refused hnext)

/-- Behind a character that is refused. -/
theorem Agrees.behind {reason : Refusal} (hp : Place.At total depth ⟨c :: cs, o, d⟩)
    (ha : h.Awaits next (c :: cs)) (hnext : next c = .error reason) (hconsumes : reason.consumes = true) :
    Agrees total depth h Post (outcome (fail (reason.errorAt c o)) ⟨cs, o + c.utf8Size, d⟩) := by
  have ho : o = total - byteLength (c :: cs) := Nat.eq_sub_of_add_eq hp.size_eq
  have hat := hp.bump
  rw [ho] at hat ⊢
  exact .refused hat (by rw [hconsumes]; rfl) (ha.eq_refused hnext)

/-- One list deeper and back. -/
theorem Agrees.deeper {read : Reading α} {p : Place}
    (hm : Agrees total (depth + 1) h Post (outcome read { p with depth := p.depth + 1 })) :
    Agrees total depth h Post (outcome (Descent.deeper read) p) := by
  have back : ∀ {q : Place}, q.At total (depth + 1) → Place.At total depth { q with depth := q.depth - 1 } :=
    fun hq => ⟨by rw [hq.depth_eq]; rfl, hq.size_eq⟩
  change Agrees total depth h Post ((outcome read { p with depth := p.depth + 1 }).1,
    { (outcome read { p with depth := p.depth + 1 }).2 with
      depth := (outcome read { p with depth := p.depth + 1 }).2.depth - 1 })
  generalize outcome read _ = result at hm ⊢
  cases hm with
  | ok hq ha => exact .ok (back hq) ha
  | ended hq hrest hσ hh => exact .ended (back hq) hrest hσ hh
  | refused hq hrest hh => exact .refused (back hq) hrest hh

end Basic

/-! ### names -/

section Names

variable {total depth : Nat} {h : Halt} {p : Place} {stack : List Frame}

/-- Behind an identifier comes a character that ends it, or nothing. -/
def EndsIdentifier (rest : List Char) : Prop := ∀ d, rest.head? = some d → isDelimiter d = true

/-- The longest word without a delimiter, and what is behind it. -/
theorem exists_word (rest : List Char) :
    ∃ word behind, rest = word ++ behind ∧ (∀ c ∈ word, isDelimiter c = false) ∧ EndsIdentifier behind := by
  refine ⟨rest.takeWhile fun c => !isDelimiter c, rest.dropWhile fun c => !isDelimiter c,
    List.takeWhile_append_dropWhile.symm, ?_, ?_⟩
  · intro c hc
    simpa using List.all_eq_true.mp List.all_takeWhile c hc
  · intro c hc
    have := List.head?_dropWhile_not (fun c => !isDelimiter c) rest
    rw [hc] at this
    simpa using this

theorem takeWhile_word {word behind : List Char} (hword : ∀ c ∈ word, isDelimiter c = false)
    (hends : EndsIdentifier behind) : ((word ++ behind).takeWhile fun c => !isDelimiter c) = word := by
  rw [List.takeWhile_append_of_pos (by simpa using hword)]
  cases behind with
  | nil => simp
  | cons c cs => simp [hends c rfl]

theorem dropWhile_word {word behind : List Char} (hword : ∀ c ∈ word, isDelimiter c = false)
    (hends : EndsIdentifier behind) : ((word ++ behind).dropWhile fun c => !isDelimiter c) = behind := by
  rw [List.dropWhile_append_of_pos (by simpa using hword)]
  cases behind with
  | nil => simp
  | cons c cs => simp [hends c rfl]

theorem outcome_identifier (p : Place) :
    outcome identifier p =
      let word := p.rest.takeWhile fun c => !isDelimiter c
      if word.isEmpty then
        if p.rest.isEmpty then outcome (fail (.unexpectedEnd p.position)) p
        else outcome (fail (.emptyIdentifier p.position)) p
      else
        (.ok (String.ofList word),
          ⟨p.rest.dropWhile fun c => !isDelimiter c, p.position + byteLength word, p.depth⟩) := by
  change outcome (if (p.rest.takeWhile fun c => !isDelimiter c).isEmpty then
    if p.rest.isEmpty then fail (.unexpectedEnd p.position) else fail (.emptyIdentifier p.position)
    else _) p = _
  rw [outcome_ite, outcome_ite]
  rfl

/-- An identifier is read at a point that collects its letters and refuses to end without any. -/
theorem agrees_identifier {point : List Char → Point} {letters : List Char}
    (hletter : ∀ letters c, isDelimiter c = false →
      State.step ⟨stack, point letters⟩ c = .ok ⟨stack, point (c :: letters)⟩)
    (hempty : ∀ d, isDelimiter d = true → State.step ⟨stack, point letters⟩ d = .error .emptyIdentifier)
    (hpoint : State.Unfinished ⟨stack, point letters⟩) (hp : p.At total depth)
    (hh : h = State.run ⟨stack, point letters⟩ p.rest) :
    Agrees total depth h
      (fun name rest => IsIdentifier name ∧ EndsIdentifier rest ∧ rest.length ≤ p.rest.length ∧
        h = State.run ⟨stack, point (name.toList.reverse ++ letters)⟩ rest)
      (outcome identifier p) := by
  obtain ⟨rest, o, d⟩ := p
  obtain ⟨word, behind, rfl, hword, hends⟩ := exists_word rest
  rw [outcome_identifier, takeWhile_word hword hends, dropWhile_word hword hends]
  cases word with
  | nil =>
    have hawait : h.Awaits (State.step ⟨stack, point letters⟩) behind := .of_run hh hpoint
    cases behind with
    | nil => exact .atEnd hp hawait
    | cons c cs => exact .front hp hawait (hempty c (hends c rfl)) rfl
  | cons c cs =>
    refine .ok ⟨hp.depth_eq, ?_⟩ ⟨⟨by simp, by simpa using hword⟩, hends, by simp; omega, ?_⟩
    · rw [← hp.size_eq, byteLength_append, Nat.add_assoc]
    · rw [hh, State.run_letters point hletter hword, String.toList_ofList]

/-! ### the first name of a class -/

/-- Letters, the last one first, that begin with a whole identifier. -/
def EndsWhole (letters : List Char) : Prop :=
  ∃ (piece : String) (front : List Char), IsIdentifier piece ∧ letters = piece.toList.reverse ++ front

theorem step_wholeName {name : String} (hname : EndsWhole name.toList.reverse) {d : Char}
    (hd : isDelimiter d = true) :
    State.step ⟨stack, .pathName name.toList.reverse⟩ d =
      if d = '/' then .ok ⟨stack, .pathName ('/' :: name.toList.reverse)⟩
      else State.closeName stack [] name d := by
  obtain ⟨piece, front, hpiece, hletters⟩ := hname
  have hname : String.ofList name.toList.reverse.reverse = name := by
    rw [List.reverse_reverse, String.ofList_toList]
  rw [hletters] at hname ⊢
  rw [State.step_pathName hpiece front hd, hname]

theorem unfinished_pathName (letters : List Char) : State.Unfinished ⟨stack, .pathName letters⟩ := nofun

/-- An identifier of a path name, at the beginning or behind a slash. -/
theorem agrees_piece {letters : List Char} (hfresh : letters.isEmpty || letters.head? == some '/')
    (hp : p.At total depth) (hh : h = State.run ⟨stack, .pathName letters⟩ p.rest) :
    Agrees total depth h
      (fun name rest => IsIdentifier name ∧ EndsIdentifier rest ∧ rest.length ≤ p.rest.length ∧
        h = State.run ⟨stack, .pathName (name.toList.reverse ++ letters)⟩ rest)
      (outcome identifier p) := by
  refine agrees_identifier (fun _ _ hc => by simp [State.step, hc]) ?_ (unfinished_pathName _) hp hh
  intro d hd
  simp only [State.step, hd, Bool.not_true, Bool.false_eq_true, if_false]
  exact if_pos hfresh

/-- Where no slash follows, the name is whole. -/
theorem awaits_closeName {name : String} (hname : EndsWhole name.toList.reverse) {rest : List Char}
    (hends : EndsIdentifier rest) (hslash : rest.head? ≠ some '/')
    (hh : h = State.run ⟨stack, .pathName name.toList.reverse⟩ rest) :
    h.Awaits (State.closeName stack [] name) rest := by
  have hawait : h.Awaits (State.step ⟨stack, .pathName name.toList.reverse⟩) rest :=
    .of_run hh (unfinished_pathName _)
  refine hawait.congr fun d hd => ?_
  rw [step_wholeName hname (hends d hd), if_neg]
  rintro rfl
  exact hslash hd

theorem agrees_slashedPieces {rounds n : Nat} {name : String} (hname : EndsWhole name.toList.reverse)
    (hp : p.At total depth) (hends : EndsIdentifier p.rest) (hrounds : p.rest.length ≤ rounds)
    (hn : p.rest.length ≤ n) (hh : h = State.run ⟨stack, .pathName name.toList.reverse⟩ p.rest) :
    Agrees total depth h
      (fun name rest => h.Awaits (State.closeName stack [] name) rest ∧ rest.length ≤ n)
      (outcome (slashedPieces rounds name) p) := by
  induction rounds generalizing name p with
  | zero =>
    have hnil : p.rest = [] := List.eq_nil_of_length_eq_zero (Nat.le_zero.mp hrounds)
    exact .ok hp ⟨awaits_closeName hname hends (by simp [hnil]) hh, hn⟩
  | succ rounds ih =>
    obtain ⟨rest, o, d⟩ := p
    by_cases hslash : rest.head? = some '/'
    · obtain ⟨cs, rfl⟩ := List.head?_eq_some_iff.mp hslash
      have hopen : h = State.run ⟨stack, .pathName ('/' :: name.toList.reverse)⟩ cs := by
        rw [hh, State.run_cons]
        rw [step_wholeName hname (by decide), if_pos rfl]
      have hlength : cs.length ≤ rounds ∧ cs.length ≤ n := by
        simp only [List.length_cons] at hrounds hn
        omega
      change Agrees _ _ _ _ (outcome (identifier >>= fun piece => slashedPieces rounds (name ++ "/" ++ piece))
        ⟨cs, o + '/'.utf8Size, d⟩)
      refine (agrees_piece rfl hp.bump hopen).bind ?_
      rintro piece q hq ⟨hpiece, hends, hshorter, hrun⟩
      have hletters : (name ++ "/" ++ piece).toList.reverse =
          piece.toList.reverse ++ '/' :: name.toList.reverse := by simp
      refine ih ⟨piece, _, hpiece, hletters⟩ hq hends (Nat.le_trans hshorter hlength.1)
        (Nat.le_trans hshorter hlength.2) ?_
      rw [hrun, hletters]
    · change Agrees _ _ _ _ (outcome (if rest.head? = some '/' then _ else _) ⟨rest, o, d⟩)
      rw [if_neg hslash]
      exact .ok hp ⟨awaits_closeName hname hends hslash hh, hn⟩

/-- The first name of a class, behind its `L`. -/
theorem agrees_pathName (hp : p.At total depth) (hh : h = State.run ⟨stack, .pathName []⟩ p.rest) :
    Agrees total depth h
      (fun name rest => h.Awaits (State.closeName stack [] name) rest ∧ rest.length ≤ p.rest.length)
      (outcome pathName p) := by
  refine (agrees_piece rfl hp hh).bind ?_
  rintro first q hq ⟨hfirst, hends, hshorter, hrun⟩
  rw [List.append_nil] at hrun
  exact agrees_slashedPieces ⟨first, [], hfirst, by simp⟩ hq hends (Nat.le_refl _) hshorter hrun

/-- The name of an inner class, behind its dot. -/
theorem agrees_innerName {outer : List Segment} (hp : p.At total depth)
    (hh : h = State.run ⟨stack, .innerName outer []⟩ p.rest) :
    Agrees total depth h
      (fun name rest => h.Awaits (State.closeName stack outer name) rest ∧ rest.length ≤ p.rest.length)
      (outcome identifier p) := by
  refine (agrees_identifier (fun _ _ hc => by simp [State.step, hc]) (fun _ hd => by simp [State.step, hd])
    (by nofun) hp hh).mono ?_
  rintro name rest ⟨hname, hends, hshorter, hrun⟩
  rw [List.append_nil] at hrun
  refine ⟨?_, hshorter⟩
  have hawait : h.Awaits (State.step ⟨stack, .innerName outer name.toList.reverse⟩) rest :=
    .of_run hrun (by nofun)
  exact hawait.congr fun d hd => State.step_innerName hname (hends d hd)

end Names

end Descent

end ClassMetadata
