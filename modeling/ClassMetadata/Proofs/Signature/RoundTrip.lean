import ClassMetadata.Proofs.Signature.Invariant

/-!
# Reading is the inverse of printing

A text is read as a tree exactly if the tree is well formed and prints as the text.

* One half is the invariant of reading: a state that is done has read the text of its result.
* For the other half, `run_chars`: from a state that waits for a type, **the text of a legal type leads to
  the state in which the type is delivered**, whatever comes behind it.  The induction is on the tree; for
  class paths and argument lists it goes along the list.

A `component` point takes every type that can stand inside another one, so the induction is about such
points only, and the other places where a type can begin are compared with them at its first character.
-/

namespace ClassMetadata

namespace State

variable {stack : List Frame} {outer : List Segment} {name : String}

/-! ### first characters -/

theorem run_cons {σ σ' : State} {c : Char} (h : σ.step c = .ok σ') (cs : List Char) :
    σ.run (c :: cs) = σ'.run cs := by
  rw [run, h]

/-- States that take a character alike read alike from there. -/
theorem run_cons_congr {σ τ : State} {c : Char} (h : σ.step c = τ.step c) (cs : List Char) :
    σ.run (c :: cs) = τ.run (c :: cs) := by
  rw [run, run, h]

theorem step_component {c : Char} (h : c ≠ '[' ∨ ¬ Frame.InArray stack) :
    step ⟨stack, .component⟩ c = openType stack c := by
  match stack, h with
  | [], _ => rfl
  | .argument .. :: _, _ => rfl
  | .dimensions _ :: _, .inl hc => exact if_neg hc
  | .dimensions _ :: _, .inr hout => exact absurd trivial hout

/-- Room for so many more brackets in an open array. -/
def BracketsFit (k : Nat) : List Frame → Prop
  | .dimensions n :: _ => n + k ≤ maxDimensions
  | _ => True

theorem wrap_array (n : Nat) (t : Signature) : wrap n (.array t) = wrap (n + 1) t := by
  induction n with
  | zero => rfl
  | succ n ih => rw [wrap, ih]; rfl

/-- A bracket goes to the open array, or opens one; a type delivered there arrives as an array. -/
theorem step_bracket {k : Nat} (hk : k + 1 ≤ maxDimensions) (h : BracketsFit (k + 1) stack) :
    ∃ inner, step ⟨stack, .component⟩ '[' = .ok ⟨inner, .component⟩ ∧ nesting inner = nesting stack ∧
      BracketsFit k inner ∧ ∀ t, deliver t inner = deliver (.array t) stack := by
  match stack, h with
  | .dimensions n :: below, h =>
    have hn : n + (k + 1) ≤ maxDimensions := h
    refine ⟨.dimensions (n + 1) :: below, if_pos (by omega), rfl, ?_, fun t => ?_⟩
    · rw [BracketsFit]
      omega
    · rw [deliver, deliver, wrap_array]
  | [], _ => exact ⟨[.dimensions 1], rfl, rfl, by rw [BracketsFit]; omega, fun _ => rfl⟩
  | .argument outer name before bound :: below, _ =>
    exact ⟨.dimensions 1 :: _ :: below, rfl, rfl, by rw [BracketsFit]; omega, fun _ => rfl⟩

/-- A character that begins a reference. -/
def BeginsReference (c : Char) : Prop := c = 'L' ∨ c = 'T' ∨ c = '['

theorem openType_of_beginsReference {c : Char} (h : BeginsReference c) :
    openType stack c = openReference stack c := by
  rcases h with rfl | rfl | rfl <;> rfl

theorem exists_beginsReference {t : Signature} (h : t.IsReference) :
    ∃ c cs, t.chars = c :: cs ∧ BeginsReference c := by
  cases t with
  | base _ => exact h.elim
  | void => exact h.elim
  | classType path => exact ⟨'L', _, Signature.chars_classType path, .inl rfl⟩
  | array component => exact ⟨'[', _, rfl, .inr (.inr rfl)⟩
  | typeVariable name => exact ⟨'T', _, rfl, .inr (.inl rfl)⟩

/-- A reference is read alike at every point that takes the first character of one. -/
theorem run_reference {t : Signature} {σ : State} (ht : t.IsReference) (hout : ¬ Frame.InArray stack)
    (hσ : ∀ c, BeginsReference c → σ.step c = openReference stack c) (rest : List Char) :
    σ.run (t.chars ++ rest) = run ⟨stack, .component⟩ (t.chars ++ rest) := by
  obtain ⟨c, cs, hchars, hc⟩ := exists_beginsReference ht
  rw [hchars]
  refine run_cons_congr ?_ _
  rw [hσ c hc, step_component (.inr hout), openType_of_beginsReference hc]

/-! ### names -/

/-- Letters that end no identifier, at a point that collects them. -/
theorem run_letters (point : List Char → Point)
    (hpoint : ∀ letters c, isDelimiter c = false →
      step ⟨stack, point letters⟩ c = .ok ⟨stack, point (c :: letters)⟩)
    {word : List Char} (hword : ∀ c ∈ word, isDelimiter c = false) (letters rest : List Char) :
    run ⟨stack, point letters⟩ (word ++ rest) = run ⟨stack, point (word.reverse ++ letters)⟩ rest := by
  induction word generalizing letters with
  | nil => rfl
  | cons c word ih =>
    obtain ⟨hc, hword⟩ := List.forall_mem_cons.1 hword
    rw [List.cons_append, run_cons (hpoint letters c hc), ih hword]
    simp

/-- An identifier that has just been read ends with a letter. -/
theorem exists_letter_of_isIdentifier {p : String} (hp : IsIdentifier p) (letters : List Char) :
    ∃ c cs, p.toList.reverse ++ letters = c :: cs ∧ isDelimiter c = false := by
  cases h : p.toList.reverse with
  | nil => exact absurd (by simpa using h) hp.1
  | cons c cs =>
    refine ⟨c, cs ++ letters, rfl, hp.2 c ?_⟩
    rw [← List.mem_reverse, h]
    exact List.mem_cons_self

theorem step_variableName {p : String} (hp : IsIdentifier p) :
    step ⟨stack, .variableName p.toList.reverse⟩ ';' = .ok (deliver (.typeVariable p) stack) := by
  have hne : p.toList.reverse.isEmpty = false := by simpa using hp.1
  simp [step, isDelimiter, hne]

theorem step_innerName {p : String} (hp : IsIdentifier p) {d : Char} (hd : isDelimiter d = true) :
    step ⟨stack, .innerName outer p.toList.reverse⟩ d = closeName stack outer p d := by
  have hne : p.toList.reverse.isEmpty = false := by simpa using hp.1
  simp [step, hd, hne]

theorem step_pathName {p : String} (hp : IsIdentifier p) (letters : List Char) {d : Char}
    (hd : isDelimiter d = true) :
    step ⟨stack, .pathName (p.toList.reverse ++ letters)⟩ d =
      if d = '/' then .ok ⟨stack, .pathName ('/' :: (p.toList.reverse ++ letters))⟩
      else closeName stack [] (String.ofList (p.toList.reverse ++ letters).reverse) d := by
  obtain ⟨c, cs, h, hc⟩ := exists_letter_of_isIdentifier hp letters
  have hslash : c ≠ '/' := by
    rintro rfl
    exact absurd hc (by decide)
  rw [h]
  simp only [step, hd, List.isEmpty_cons, List.head?_cons, Bool.false_or, Bool.not_true,
    Bool.false_eq_true, if_false]
  rw [if_neg (by simpa using hslash)]
  split
  · next hd => rw [hd]
  · rfl

/-- Identifiers with their slashes. -/
theorem run_slashed {pieces : List String} (hp : ∀ p ∈ pieces, IsIdentifier p) (letters rest : List Char) :
    run ⟨stack, .pathName letters⟩ (slashed pieces ++ rest) =
      run ⟨stack, .pathName ((slashed pieces).reverse ++ letters)⟩ rest := by
  induction pieces generalizing letters with
  | nil => rfl
  | cons p pieces ih =>
    obtain ⟨hp, hpieces⟩ := List.forall_mem_cons.1 hp
    have hword : ∀ rest, run ⟨stack, .pathName letters⟩ (p.toList ++ rest) =
        run ⟨stack, .pathName (p.toList.reverse ++ letters)⟩ rest :=
      run_letters .pathName (fun _ _ hc => by simp [step, hc]) hp.2 letters
    simp only [slashed, List.flatMap_cons, List.append_assoc, List.cons_append, List.nil_append] at ih ⊢
    rw [hword, run_cons (step_pathName hp letters (by decide)), ih hpieces]
    simp

/-- The first name of a class, up to the character behind it. -/
theorem run_pathName (stack : List Frame) (hn : IsPathName name) {d : Char} (hd : isDelimiter d = true)
    (hslash : d ≠ '/') (rest : List Char) :
    ∃ σ : State, run ⟨stack, .pathName []⟩ (name.toList ++ d :: rest) = σ.run (d :: rest) ∧
      σ.step d = closeName stack [] name d := by
  obtain ⟨pieces, last, hp, hl, he⟩ := isPathName_iff.1 hn
  refine ⟨⟨stack, .pathName (last.toList.reverse ++ (slashed pieces).reverse)⟩, ?_, ?_⟩
  · rw [he, List.append_assoc, run_slashed hp, List.append_nil]
    exact run_letters .pathName (fun _ _ hc => by simp [step, hc]) hl.2 _ _
  · rw [step_pathName hl _ hd, if_neg hslash, List.reverse_append, List.reverse_reverse,
      List.reverse_reverse, ← he, String.ofList_toList]

/-- The name of an inner class, up to the character behind it. -/
theorem run_innerName (stack : List Frame) (outer : List Segment) (hn : IsIdentifier name) {d : Char}
    (hd : isDelimiter d = true) (rest : List Char) :
    ∃ σ : State, run ⟨stack, .innerName outer []⟩ (name.toList ++ d :: rest) = σ.run (d :: rest) ∧
      σ.step d = closeName stack outer name d := by
  refine ⟨⟨stack, .innerName outer name.toList.reverse⟩, ?_, step_innerName hn hd⟩
  rw [run_letters (.innerName outer) (fun _ _ hc => by simp [step, hc]) hn.2, List.append_nil]

/-! ### trees -/

/-- A character that can stand behind a segment. -/
def EndsSegment (c : Char) : Prop := c = '.' ∨ c = ';'

theorem exists_endsSegment (path : List Segment) (rest : List Char) :
    ∃ c cs, Segment.innerChars path ++ ';' :: rest = c :: cs ∧ EndsSegment c := by
  cases path with
  | nil => exact ⟨';', rest, rfl, .inr rfl⟩
  | cons s path => exact ⟨'.', _, rfl, .inl rfl⟩

/-- The first character of what may stand behind a name. -/
theorem exists_endsName (as : List TypeArgument) (path : List Segment) (rest : List Char) :
    ∃ c cs, TypeArgument.listChars as ++ (Segment.innerChars path ++ ';' :: rest) = c :: cs ∧
      isDelimiter c = true ∧ c ≠ '/' := by
  cases as with
  | nil =>
    obtain ⟨c, cs, h, hc⟩ := exists_endsSegment path rest
    refine ⟨c, cs, h, ?_⟩
    rcases hc with rfl | rfl <;> decide
  | cons a as => exact ⟨'<', _, rfl, by decide⟩

/-- The arguments behind a name, given that the arguments themselves are read as they should. -/
theorem run_listChars {σ : State} {as : List TypeArgument} {d : Char} {cs text : List Char}
    (htext : TypeArgument.listChars as ++ text = d :: cs) (hσ : σ.step d = closeName stack outer name d)
    (hend : ∃ c cs, text = c :: cs ∧ EndsSegment c)
    (hroom : nesting stack + TypeArgument.listNesting as ≤ maxArgumentNesting)
    (has : ∀ rest, run ⟨stack, .arguments outer name []⟩ (TypeArgument.tailChars as ++ rest) =
      run ⟨stack, .arguments outer name as.reverse⟩ rest) :
    σ.run (d :: cs) = run ⟨stack, .segmentEnd (⟨name, as⟩ :: outer)⟩ text := by
  cases as with
  | nil =>
    obtain ⟨c, cs', rfl, hc⟩ := hend
    obtain ⟨rfl, rfl⟩ : c = d ∧ cs' = cs := by simpa [TypeArgument.listChars] using htext
    refine run_cons_congr ?_ _
    rw [hσ, closeName, if_neg]
    · rfl
    · rcases hc with rfl | rfl <;> decide
  | cons a as =>
    simp only [TypeArgument.listChars, List.cons_append, List.cons.injEq] at htext
    obtain ⟨rfl, rfl⟩ := htext
    have hopen : nesting stack < maxArgumentNesting := by
      simp only [TypeArgument.listNesting] at hroom
      omega
    have hstep : σ.step '<' = .ok ⟨stack, .arguments outer name []⟩ := by simp [hσ, closeName, hopen]
    rw [run_cons hstep]
    have := has ('>' :: text)
    simp only [TypeArgument.tailChars, List.append_assoc, List.cons_append, List.nil_append] at this ⊢
    rw [this]
    exact run_cons (by simp [step, stepArguments]) text

/-- The type of an argument, given that the type itself is read as it should. -/
theorem run_bound {σ : State} {t : Signature} {before : List TypeArgument} {rest : List Char}
    (bound : Bound) (ht : t.IsReference)
    (hσ : ∀ c, BeginsReference c → σ.step c = openReference (.argument outer name before bound :: stack) c)
    (hread : run ⟨.argument outer name before bound :: stack, .component⟩ (t.chars ++ rest) =
      (deliver t (.argument outer name before bound :: stack)).run rest) :
    σ.run (t.chars ++ rest) = run ⟨stack, .arguments outer name (bound.argument t :: before)⟩ rest := by
  rw [run_reference ht id hσ, hread]
  rfl

mutual

/-- **The text of a legal type is read as the type**, if the limits leave room for it: that on argument
lists below the open ones, and that on dimensions behind the brackets of an open array. -/
theorem run_chars : ∀ (t : Signature) (stack : List Frame), t.Legal →
    nesting stack + t.argumentNesting ≤ maxArgumentNesting → BracketsFit t.dimensions stack → ∀ rest,
    run ⟨stack, .component⟩ (t.chars ++ rest) = (deliver t stack).run rest
  | .base b, stack, _, _, _, rest => by
    refine run_cons ?_ rest
    rw [step_component (.inl (by cases b <;> decide)), openType, BaseType.ofDescriptor?_descriptor]
  | .array component, stack, ht, hn, hd, rest => by
    obtain ⟨inner, hstep, hnesting, hfit, hdeliver⟩ := step_bracket ht.1 hd
    rw [Signature.chars, List.cons_append, run_cons hstep, ← hdeliver]
    exact run_chars component _ ht.2 (by rwa [hnesting]) hfit rest
  | .typeVariable name, stack, ht, _, _, rest => by
    have hopen : step ⟨stack, .component⟩ 'T' = .ok ⟨stack, .variableName []⟩ :=
      step_component (.inl (by decide))
    simp only [Signature.chars, List.cons_append, List.append_assoc, List.nil_append]
    rw [run_cons hopen, run_letters .variableName (fun _ _ hc => by simp [step, hc]) ht.2,
      List.append_nil]
    exact run_cons (step_variableName ht) rest
  | .classType (⟨name, as⟩ :: path), stack, ht, hn, _, rest => by
    obtain ⟨⟨hname, hinner⟩, has, hpath⟩ := ht
    have hopen : step ⟨stack, .component⟩ 'L' = .ok ⟨stack, .pathName []⟩ :=
      step_component (.inl (by decide))
    simp only [Signature.argumentNesting, Segment.argumentNesting] at hn
    simp only [Signature.chars, Segment.chars, List.cons_append, List.append_assoc, List.nil_append]
    rw [run_cons hopen]
    obtain ⟨d, cs, htext, hd, hslash⟩ := exists_endsName as path rest
    obtain ⟨σ, hrun, hσ⟩ := run_pathName stack hname hd hslash cs
    rw [htext, hrun, run_listChars htext hσ (exists_endsSegment path rest) (by omega), run_innerChars path
      hinner hpath (by omega)]
    · rfl
    · intro rest
      rw [run_tailChars as has (by omega), List.append_nil]

theorem run_innerChars : ∀ (path : List Segment) {stack : List Frame} {outer : List Segment},
    (∀ s ∈ path, IsIdentifier s.name) → Segment.ArgumentsLegal path →
    nesting stack + Segment.argumentNesting path ≤ maxArgumentNesting → ∀ rest,
    run ⟨stack, .segmentEnd outer⟩ (Segment.innerChars path ++ ';' :: rest) =
      (deliver (.classType (outer.reverse ++ path)) stack).run rest
  | [], stack, outer, _, _, _, rest => by
    rw [List.append_nil]
    exact run_cons rfl rest
  | ⟨name, as⟩ :: path, stack, outer, hnames, hlegal, hn, rest => by
    obtain ⟨hname, hinner⟩ := List.forall_mem_cons.1 hnames
    obtain ⟨has, hpath⟩ := hlegal
    simp only [Segment.argumentNesting] at hn
    simp only [Segment.innerChars, Segment.chars, List.cons_append, List.append_assoc]
    have hopen : step ⟨stack, .segmentEnd outer⟩ '.' = .ok ⟨stack, .innerName outer []⟩ := rfl
    rw [run_cons hopen]
    obtain ⟨d, cs, htext, hd, -⟩ := exists_endsName as path rest
    obtain ⟨σ, hrun, hσ⟩ := run_innerName stack outer hname hd cs
    rw [htext, hrun, run_listChars htext hσ (exists_endsSegment path rest) (by omega), run_innerChars path
      hinner hpath (by omega)]
    · simp
    · intro rest
      rw [run_tailChars as has (by omega), List.append_nil]

theorem run_argument : ∀ (a : TypeArgument) {stack : List Frame} {outer : List Segment} {name : String}
    {before : List TypeArgument}, a.Legal → nesting stack + 1 + a.argumentNesting ≤ maxArgumentNesting →
    ∀ rest, run ⟨stack, .arguments outer name before⟩ (a.chars ++ rest) =
      run ⟨stack, .arguments outer name (a :: before)⟩ rest
  | .unbounded, _, _, _, _, _, _, rest => run_cons rfl rest
  | .exactly t, stack, outer, name, before, ha, hn, rest => by
    refine run_bound .exactly ha.1 ?_ ?_
    · rintro c (rfl | rfl | rfl) <;> rfl
    · exact run_chars t (.argument outer name before .exactly :: stack) ha.2 hn trivial rest
  | .upperBound t, stack, outer, name, before, ha, hn, rest => by
    have hopen : step ⟨stack, .arguments outer name before⟩ '+' =
      .ok ⟨.argument outer name before .upper :: stack, .bounded⟩ := rfl
    rw [TypeArgument.chars, List.cons_append, run_cons hopen]
    refine run_bound .upper ha.1 (fun _ _ => rfl) ?_
    exact run_chars t (.argument outer name before .upper :: stack) ha.2 hn trivial rest
  | .lowerBound t, stack, outer, name, before, ha, hn, rest => by
    have hopen : step ⟨stack, .arguments outer name before⟩ '-' =
      .ok ⟨.argument outer name before .lower :: stack, .bounded⟩ := rfl
    rw [TypeArgument.chars, List.cons_append, run_cons hopen]
    refine run_bound .lower ha.1 (fun _ _ => rfl) ?_
    exact run_chars t (.argument outer name before .lower :: stack) ha.2 hn trivial rest

theorem run_tailChars : ∀ (as : List TypeArgument) {stack : List Frame} {outer : List Segment}
    {name : String} {before : List TypeArgument}, TypeArgument.AllLegal as →
    nesting stack + TypeArgument.listNesting as ≤ maxArgumentNesting → ∀ rest,
    run ⟨stack, .arguments outer name before⟩ (TypeArgument.tailChars as ++ rest) =
      run ⟨stack, .arguments outer name (as.reverse ++ before)⟩ rest
  | [], _, _, _, _, _, _, _ => rfl
  | a :: as, stack, outer, name, before, ⟨ha, has⟩, hn, rest => by
    simp only [TypeArgument.listNesting] at hn
    simp only [TypeArgument.tailChars, List.append_assoc]
    rw [run_argument a ha (by omega), run_tailChars as has (by omega), List.reverse_cons,
      List.append_assoc]
    rfl

end

/-- A whole well-formed text. -/
theorem run_wellFormed {t : Signature} (ht : t.WellFormed) : initial.run t.chars = .ended ⟨[], .done t⟩ := by
  rcases ht with rfl | ⟨hlegal, hn⟩
  · rfl
  have hread := run_chars t [] hlegal (by simpa [nesting] using hn) trivial []
  rw [List.append_nil] at hread
  have hstart : initial.run t.chars = run ⟨[], .component⟩ t.chars := by
    cases t with
    | void => exact hlegal.elim
    | base b => exact run_cons_congr (by cases b <;> rfl) []
    | array component => exact run_cons_congr rfl _
    | typeVariable name => exact run_cons_congr rfl _
    | classType path =>
      rw [Signature.chars_classType]
      exact run_cons_congr rfl _
  rw [hstart, hread]
  rfl

end State

namespace Signature

theorem parse_eq_ok_iff_run {text : String} {t : Signature} :
    parse text = .ok t ↔ ∃ stack, State.initial.run text.toList = .ended ⟨stack, .done t⟩ := by
  unfold parse Reader.next Reader.ofString
  split
  · next hempty =>
    have htext : text.toList = [] := by simpa using hempty
    simp [htext, State.run, State.initial]
  · dsimp only
    split
    · next stack t' h => simp [h, eq_comm]
    · next σ hne h =>
      rw [h]
      simp only [reduceCtorEq, Halt.ended.injEq, false_iff, not_exists]
      exact fun stack hσ => hne stack t hσ
    · next h => simp [h]

/-- **A text is read as a tree exactly if the tree is well formed and prints as the text.** -/
theorem parse_eq_ok_iff (text : String) (t : Signature) :
    parse text = .ok t ↔ t.WellFormed ∧ t.render = text := by
  rw [parse_eq_ok_iff_run]
  constructor
  · rintro ⟨stack, h⟩
    obtain ⟨⟨-, rfl, ht⟩, hchars⟩ := State.run_after State.initial_after h
    refine ⟨ht, ?_⟩
    rw [← String.toList_inj, render, String.toList_ofList]
    exact hchars
  · rintro ⟨ht, rfl⟩
    refine ⟨[], ?_⟩
    rw [render, String.toList_ofList]
    exact State.run_wellFormed ht

end Signature

end ClassMetadata
