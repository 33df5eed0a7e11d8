import ClassMetadata.Proofs.Signature.Agreement

/-!
# Descent and machine read alike

Every function of the descent that reads types is followed along a run of the machine.  A function gets what
it needs of the recursion as a hypothesis, `Reads`, that something is read as it should be below so many
argument lists.  In the recursion a class passes its budget on below its argument list, one level deeper,
and an array to something that is no array; so twice the number of levels that are left is enough, and one
or two calls more (`reads_reference`).

Hence `wholeSignature_eq_next_of_le`: **a call by descent gives what a call on the reader gives**, with the
full budget or a larger one for every text.
-/

namespace ClassMetadata

namespace Descent

/-! ### types -/

section Types

variable {total depth : Nat} {h : Halt} {p : Place} {stack : List Frame} {reference : Reading Signature}

/-- The end of a type variable, behind its `T`. -/
theorem agrees_variable (hp : p.At total depth) (hh : h = State.run ⟨stack, .variableName []⟩ p.rest) :
    Agrees total depth h
      (fun t rest => h = (State.deliver t stack).run rest ∧ rest.length ≤ p.rest.length)
      (outcome (do
        let name ← identifier
        expect ';' .semicolonAfterVariable
        return Signature.typeVariable name) p) := by
  refine (agrees_identifier (fun _ _ hc => by simp [State.step, hc]) (fun _ hd => by simp [State.step, hd])
    (by nofun) hp hh).bind ?_
  rintro name ⟨rest, o, d⟩ hq ⟨hname, hends, hshorter, hrun⟩
  rw [List.append_nil] at hrun
  have hawait : h.Awaits (State.step ⟨stack, .variableName name.toList.reverse⟩) rest :=
    .of_run hrun (by nofun)
  cases rest with
  | nil => exact .atEnd hq hawait
  | cons c cs =>
    by_cases hc : c = ';'
    · subst hc
      exact .ok hq.bump ⟨hawait.eq_run (State.step_variableName hname), Nat.le_of_succ_le hshorter⟩
    · have hne : name.toList.reverse.isEmpty = false := by simpa using hname.1
      have hrefused : State.step ⟨stack, .variableName name.toList.reverse⟩ c =
          .error (.unexpected .semicolonAfterVariable) := by
        simp [State.step, hends c rfl, hne, hc]
      change Agrees _ _ _ _ (outcome
        ((if c = ';' then return () else fail (.unexpectedChar c o .semicolonAfterVariable)) >>= fun _ => _)
        ⟨cs, o + c.utf8Size, d⟩)
      rw [if_neg hc]
      exact .behind hq hawait hrefused rfl

/-- Something is read that waits for a type below so many lists, if what is left begins with none of the
characters left out. -/
def Reads (reference : Reading Signature) (depth : Nat) (allowed : Char → Prop) : Prop :=
  ∀ ⦃total : Nat⦄ ⦃h : Halt⦄ ⦃p : Place⦄ ⦃stack : List Frame⦄, p.At total depth →
    State.nesting stack = depth →
    (∀ c, p.rest.head? = some c → allowed c) → h.Awaits (State.openReference stack) p.rest →
    Agrees total depth h (fun t rest => h = (State.deliver t stack).run rest ∧ rest.length < p.rest.length)
      (outcome reference p)

/-- The arguments of an open list. -/
theorem agrees_argumentList {opened rounds n : Nat} {outer : List Segment} {name : String}
    {before : List TypeArgument} (href : Reads reference (State.nesting stack + 1) fun _ => True)
    (hp : p.At total (State.nesting stack + 1)) (hopened : before = [] → p.position = opened + 1)
    (hrounds : p.rest.length < rounds) (hn : p.rest.length ≤ n)
    (hh : h = State.run ⟨stack, .arguments outer name before⟩ p.rest) :
    Agrees total (State.nesting stack + 1) h
      (fun arguments rest => h.Awaits (State.closeSegment stack (⟨name, arguments⟩ :: outer)) rest ∧
        rest.length ≤ n)
      (outcome (argumentList reference opened rounds before) p) := by
  induction rounds generalizing before p with
  | zero => exact absurd hrounds (Nat.not_lt_zero _)
  | succ rounds ih =>
    have hawait : h.Awaits (State.stepArguments stack outer name before) p.rest := .of_run hh (by nofun)
    obtain ⟨rest, o, d⟩ := p
    cases rest with
    | nil => exact .atEnd hp hawait
    | cons c cs =>
      have hlength : cs.length < rounds ∧ cs.length ≤ n := by
        simp only [List.length_cons] at hrounds hn
        omega
      -- an argument is a type of some bound, at which the loop goes on
      have hargument (bound : Bound) {p : Place} (hp : p.At total (State.nesting stack + 1))
          (hshorter : p.rest.length ≤ (c :: cs).length)
          (hawait : h.Awaits (State.openReference (.argument outer name before bound :: stack)) p.rest) :
          Agrees total (State.nesting stack + 1) h
            (fun arguments rest => h.Awaits (State.closeSegment stack (⟨name, arguments⟩ :: outer)) rest ∧
              rest.length ≤ n)
            (outcome
              (do argumentList reference opened rounds (bound.argument (← reference) :: before)) p) := by
        refine (href hp rfl (fun _ _ => trivial) hawait).bind ?_
        rintro t q hq ⟨hrun, hless⟩
        have : q.rest.length < cs.length + 1 := Nat.lt_of_lt_of_le hless hshorter
        exact ih hq nofun (by omega) (by omega) hrun
      change Agrees _ _ _ _ (outcome (if c = '>' then _ else if c = '*' then _ else if c = '+' then _
        else if c = '-' then _ else _) ⟨c :: cs, o, d⟩)
      split
      · next hc =>
        subst hc
        cases before with
        | nil =>
          obtain rfl : opened = o - 1 := by rw [show o = opened + 1 from hopened rfl]; rfl
          have hrefused : State.stepArguments stack outer name [] '>' = .error .emptyTypeArguments := rfl
          exact .behind hp hawait hrefused rfl
        | cons a before =>
          exact .ok hp.bump ⟨.of_run (hawait.eq_run rfl) (by nofun), hlength.2⟩
      split
      · next hc =>
        subst hc
        exact ih hp.bump nofun hlength.1 hlength.2 (hawait.eq_run rfl)
      split
      · next hc =>
        subst hc
        exact hargument .upper hp.bump (Nat.le_succ _) (.of_run (hawait.eq_run rfl) (by nofun))
      split
      · next hc =>
        subst hc
        exact hargument .lower hp.bump (Nat.le_succ _) (.of_run (hawait.eq_run rfl) (by nofun))
      · next hend hstar hplus hminus =>
        refine hargument .exactly hp (Nat.le_refl _) (hawait.congr fun d hd => ?_)
        obtain rfl : c = d := Option.some.inj hd
        simp [State.stepArguments, hend, hstar, hplus, hminus]

section Class

variable {n : Nat} (hdepth : State.nesting stack ≤ maxArgumentNesting)
  (href : State.nesting stack < maxArgumentNesting → Reads reference (State.nesting stack + 1) fun _ => True)

include hdepth href

/-- The arguments behind a name, if there are any. -/
theorem agrees_typeArguments {outer : List Segment} {name : String} (hp : p.At total (State.nesting stack))
    (hn : p.rest.length ≤ n) (hawait : h.Awaits (State.closeName stack outer name) p.rest) :
    Agrees total (State.nesting stack) h
      (fun arguments rest => h.Awaits (State.closeSegment stack (⟨name, arguments⟩ :: outer)) rest ∧
        rest.length ≤ n)
      (outcome (typeArguments reference) p) := by
  obtain ⟨rest, o, d⟩ := p
  change Agrees _ _ _ _ (outcome (if rest.head? = some '<' then
    if d = maxArgumentNesting then fail (.nestingTooDeep o) else _ else _) ⟨rest, o, d⟩)
  by_cases hopen : rest.head? = some '<'
  · obtain ⟨cs, rfl⟩ := List.head?_eq_some_iff.mp hopen
    rw [if_pos hopen]
    have hat : d = State.nesting stack := hp.depth_eq
    by_cases hroom : State.nesting stack < maxArgumentNesting
    · have hd : d ≠ maxArgumentNesting := by omega
      have hh : h = State.run ⟨stack, .arguments outer name []⟩ cs := by
        refine hawait.eq_run ?_
        rw [State.closeName, if_pos rfl, if_pos hroom]
      have hshorter : cs.length ≤ n := Nat.le_of_succ_le hn
      have hinside : Place.At total (State.nesting stack + 1) ⟨cs, o + '<'.utf8Size, d + 1⟩ :=
        ⟨congrArg (· + 1) hat, hp.bump.size_eq⟩
      rw [if_neg hd]
      exact (agrees_argumentList (href hroom) hinside (fun _ => rfl) (Nat.lt_succ_self _) hshorter hh).deeper
    · have hd : d = maxArgumentNesting := by omega
      have hrefused : State.closeName stack outer name '<' = .error .nestingTooDeep := by
        rw [State.closeName, if_pos rfl, if_neg hroom]
      rw [if_pos hd]
      exact .front hp hawait hrefused rfl
  · rw [if_neg hopen]
    refine .ok hp ⟨hawait.congr fun c hc => ?_, hn⟩
    rw [State.closeName, if_neg]
    rintro rfl
    exact hopen hc

/-- The end of a class, with the inner classes in front of it. -/
theorem agrees_segments {rounds : Nat} {path : List Segment} (hp : p.At total (State.nesting stack))
    (hrounds : p.rest.length < rounds) (hn : p.rest.length ≤ n)
    (hawait : h.Awaits (State.closeSegment stack path) p.rest) :
    Agrees total (State.nesting stack) h
      (fun path rest => h = (State.deliver (.classType path) stack).run rest ∧ rest.length ≤ n)
      (outcome (segments reference rounds path) p) := by
  induction rounds generalizing path p with
  | zero => exact absurd hrounds (Nat.not_lt_zero _)
  | succ rounds ih =>
    obtain ⟨rest, o, d⟩ := p
    cases rest with
    | nil => exact .atEnd hp hawait
    | cons c cs =>
      have hlength : cs.length < rounds ∧ cs.length ≤ n := by
        simp only [List.length_cons] at hrounds hn
        omega
      change Agrees _ _ _ _
        (outcome (if c = ';' then _ else if c = '.' then _ else _) ⟨cs, o + c.utf8Size, d⟩)
      split
      · next hc =>
        subst hc
        exact .ok hp.bump ⟨hawait.eq_run rfl, hlength.2⟩
      split
      · next hc =>
        subst hc
        refine (agrees_innerName hp.bump (hawait.eq_run rfl)).bind ?_
        rintro name q hq ⟨hname, hshorter⟩
        refine (agrees_typeArguments hdepth href hq hshorter hname).bind ?_
        rintro arguments q' hq' ⟨hsegment, hshorter'⟩
        exact ih hq' (Nat.lt_of_le_of_lt hshorter' hlength.1) (Nat.le_trans hshorter' hlength.2) hsegment
      · next hsemicolon hdot =>
        have hrefused : State.closeSegment stack path c = .error (.unexpected .dotOrSemicolon) := by
          rw [State.closeSegment, if_neg hsemicolon, if_neg hdot]
        exact .behind hp hawait hrefused rfl

/-- The rest of a class behind its `L`. -/
theorem agrees_classType (hp : p.At total (State.nesting stack))
    (hh : h = State.run ⟨stack, .pathName []⟩ p.rest) :
    Agrees total (State.nesting stack) h
      (fun t rest => h = (State.deliver t stack).run rest ∧ rest.length ≤ p.rest.length)
      (outcome (classType reference) p) := by
  refine (agrees_pathName hp hh).bind ?_
  rintro name q hq ⟨hname, hshorter⟩
  refine (agrees_typeArguments hdepth href hq hshorter hname).bind ?_
  rintro arguments q' hq' ⟨hsegment, hshorter'⟩
  refine (agrees_segments hdepth href hq' (Nat.lt_succ_self _) hshorter' hsegment).bind ?_
  rintro path q'' hq'' hpath
  exact .ok hq'' hpath

end Class

variable (stack) in
/-- Any type but `void`. -/
theorem agrees_javaType {allowed : Char → Prop} (href : Reads reference (State.nesting stack) allowed)
    (hp : p.At total (State.nesting stack)) (hallowed : ∀ c, p.rest.head? = some c → allowed c)
    (hawait : h.Awaits (State.openType stack) p.rest) :
    Agrees total (State.nesting stack) h
      (fun t rest => h = (State.deliver t stack).run rest ∧ rest.length < p.rest.length)
      (outcome (javaType reference) p) := by
  obtain ⟨rest, o, d⟩ := p
  cases rest with
  | nil => exact .atEnd hp hawait
  | cons c cs =>
    change Agrees _ _ _ _ (outcome (javaTypeAt reference c) ⟨c :: cs, o, d⟩)
    rw [javaTypeAt]
    cases hbase : BaseType.ofDescriptor? c with
    | some t =>
      have hrun : h = (State.deliver (.base t) stack).run cs := hawait.eq_run (by rw [State.openType, hbase])
      exact .ok hp.bump ⟨hrun, Nat.lt_succ_self _⟩
    | none =>
      refine href hp rfl hallowed (hawait.congr fun c' hc' => ?_)
      obtain rfl : c = c' := Option.some.inj hc'
      rw [State.openType, hbase]

theorem outcome_brackets_of_ne {room : Nat} (hbracket : p.rest.head? ≠ some '[') :
    outcome (brackets room) p = (.ok 0, p) := by
  cases room <;>
    · change outcome (if p.rest.head? = some '[' then _ else _) p = _
      rw [if_neg hbracket]
      rfl

/-- The brackets of an array, some of them read already. -/
theorem agrees_brackets {room count n : Nat} (hroom : count + room = maxDimensions) (hp : p.At total depth)
    (hn : p.rest.length ≤ n) (hh : h = State.run ⟨.dimensions count :: stack, .component⟩ p.rest) :
    Agrees total depth h
      (fun more rest => h = State.run ⟨.dimensions (count + more) :: stack, .component⟩ rest ∧
        rest.head? ≠ some '[' ∧ rest.length ≤ n)
      (outcome (brackets room) p) := by
  induction room generalizing count p with
  | zero =>
    obtain ⟨rest, o, d⟩ := p
    by_cases hbracket : rest.head? = some '['
    · obtain ⟨cs, rfl⟩ := List.head?_eq_some_iff.mp hbracket
      have hawait : h.Awaits (State.stepComponent (.dimensions count :: stack)) ('[' :: cs) :=
        .of_run hh (by nofun)
      have hrefused : State.stepComponent (.dimensions count :: stack) '[' = .error .tooManyDimensions := by
        rw [State.stepComponent, if_pos rfl, if_neg (by omega)]
      exact .front hp hawait hrefused rfl
    · rw [outcome_brackets_of_ne hbracket]
      exact .ok hp ⟨hh, hbracket, hn⟩
  | succ room ih =>
    obtain ⟨rest, o, d⟩ := p
    by_cases hbracket : rest.head? = some '['
    · obtain ⟨cs, rfl⟩ := List.head?_eq_some_iff.mp hbracket
      have hrun : h = State.run ⟨.dimensions (count + 1) :: stack, .component⟩ cs := by
        rw [hh, State.run_cons]
        exact if_pos (by omega)
      refine (ih (by omega) hp.bump (Nat.le_of_succ_le hn) hrun).bind ?_
      rintro more q hq ⟨hrun, hbehind⟩
      exact .ok hq ⟨by rw [hrun, Nat.add_right_comm, Nat.add_assoc], hbehind⟩
    · rw [outcome_brackets_of_ne hbracket]
      exact .ok hp ⟨hh, hbracket, hn⟩

variable (stack) in
/-- An array: its brackets, and something behind them that is none. -/
theorem agrees_array {cs : List Char} {o d : Nat}
    (href : Reads reference (State.nesting stack) fun c => c ≠ '[')
    (hp : Place.At total (State.nesting stack) ⟨'[' :: cs, o, d⟩)
    (hawait : h.Awaits (State.openReference stack) ('[' :: cs)) :
    Agrees total (State.nesting stack) h
      (fun t rest => h = (State.deliver t stack).run rest ∧ rest.length < cs.length + 1)
      (outcome (do
        let count ← brackets maxDimensions
        return State.wrap count (← javaType reference)) ⟨'[' :: cs, o, d⟩) := by
  -- the first bracket opens the array, as if no bracket of it had been read
  have hrun : h = State.run ⟨.dimensions 0 :: stack, .component⟩ ('[' :: cs) := hawait.eq_run rfl
  refine (agrees_brackets (Nat.zero_add _) hp (Nat.le_refl _) hrun).bind ?_
  rintro count q hq ⟨hrun, hnext, hshorter⟩
  rw [Nat.zero_add] at hrun
  have hinside : h.Awaits (State.step ⟨.dimensions count :: stack, .component⟩) q.rest :=
    .of_run hrun (by nofun)
  have hother : ∀ c, q.rest.head? = some c → c ≠ '[' := by
    rintro c hc rfl
    exact hnext hc
  have hawait : h.Awaits (State.openType (.dimensions count :: stack)) q.rest :=
    hinside.congr fun c hc => State.step_component (.inl (hother c hc))
  refine (agrees_javaType (.dimensions count :: stack) href hq hother hawait).bind ?_
  rintro t q' hq' ⟨hrun, hless⟩
  exact .ok hq' ⟨hrun, Nat.lt_of_lt_of_le hless hshorter⟩

end Types

/-- A function that reads one of some types reads one of fewer. -/
theorem Reads.mono {depth : Nat} {reference : Reading Signature} {allowed allowed' : Char → Prop}
    (href : Reads reference depth allowed) (himp : ∀ c, allowed' c → allowed c) :
    Reads reference depth allowed' :=
  fun _ _ _ _ hp hstack hallowed hawait => href hp hstack (fun c hc => himp c (hallowed c hc)) hawait

/-- **The budget is enough** below so many lists: two calls for every list that can be opened, and one more
for a class or two for an array. -/
theorem reads_reference {budget depth : Nat} (hdepth : depth ≤ maxArgumentNesting)
    (hbudget : 2 * (maxArgumentNesting - depth) < budget) :
    Reads (reference budget) depth fun c => c = '[' → 2 * (maxArgumentNesting - depth) + 1 < budget := by
  induction budget generalizing depth with
  | zero => exact absurd hbudget (Nat.not_lt_zero _)
  | succ budget ih =>
    intro total h p stack hp hstack hallowed hawait
    subst hstack
    obtain ⟨rest, o, d⟩ := p
    cases rest with
    | nil => exact .atEnd hp hawait
    | cons c cs =>
      change Agrees _ _ _ _ (outcome (if c = 'L' then _ else if c = 'T' then _ else if c = '[' then _
        else _) ⟨c :: cs, o, d⟩)
      split
      · next hc =>
        subst hc
        have hbelow (hroom : State.nesting stack < maxArgumentNesting) :
            Reads (reference budget) (State.nesting stack + 1) fun _ => True :=
          Reads.mono (ih hroom (by omega)) fun _ _ _ => by omega
        refine (agrees_classType hdepth hbelow hp.bump (hawait.eq_run rfl)).mono ?_
        rintro t rest ⟨hrun, hshorter⟩
        exact ⟨hrun, Nat.lt_succ_of_le hshorter⟩
      split
      · next hc =>
        subst hc
        refine (agrees_variable hp.bump (hawait.eq_run rfl)).mono ?_
        rintro t rest ⟨hrun, hshorter⟩
        exact ⟨hrun, Nat.lt_succ_of_le hshorter⟩
      split
      · next hc =>
        subst hc
        have hmore : 2 * (maxArgumentNesting - State.nesting stack) < budget :=
          Nat.lt_of_succ_lt_succ (hallowed '[' rfl rfl)
        have hcomponent : Reads (reference budget) (State.nesting stack) fun c => c ≠ '[' :=
          Reads.mono (ih hdepth hmore) fun c hne hc => absurd hc hne
        exact agrees_array stack hcomponent hp hawait
      · next hL hT hbracket =>
        have hrefused : State.openReference stack c = .error (.unexpected .typeSignature) := by
          rw [State.openReference, if_neg hL, if_neg hT, if_neg hbracket]
        exact .front hp hawait hrefused rfl

/-- A whole signature, with the full budget or more. -/
theorem agrees_signature {total budget : Nat} {h : Halt} {p : Place} (hbudget : fullBudget ≤ budget)
    (hp : p.At total 0) (hh : h = State.initial.run p.rest) :
    Agrees total 0 h (fun t rest => h = State.run ⟨[], .done t⟩ rest)
      (outcome (signature budget) p) := by
  have hawait : h.Awaits State.initial.step p.rest := .of_run hh (by nofun)
  obtain ⟨rest, o, d⟩ := p
  change Agrees _ _ _ _ (outcome (if rest.head? = some 'V' then _ else _) ⟨rest, o, d⟩)
  by_cases hvoid : rest.head? = some 'V'
  · obtain ⟨cs, rfl⟩ := List.head?_eq_some_iff.mp hvoid
    rw [if_pos hvoid]
    exact .ok hp.bump (hawait.eq_run rfl)
  · rw [if_neg hvoid]
    have hopen : h.Awaits (State.openType []) rest := by
      refine hawait.congr fun c hc => if_neg ?_
      rintro rfl
      exact hvoid hc
    have henough : 2 * (maxArgumentNesting - 0) + 1 < budget := Nat.lt_of_lt_of_le (by decide) hbudget
    have href : Reads (reference budget) 0 fun _ => True :=
      Reads.mono (reads_reference (Nat.zero_le _) (Nat.lt_of_succ_lt henough)) fun _ _ _ => henough
    refine (agrees_javaType [] href hp (fun _ _ => trivial) hopen).mono ?_
    rintro t rest ⟨hrun, -⟩
    exact hrun

end Descent

/-! ### calls -/

namespace Reader

variable {r : Reader}

theorem next_of_empty (hempty : r.text = []) : r.next = (.error .empty, r) := by
  rw [next, hempty]
  rfl

theorem next_of_done {stack : List Frame} {t : Signature} (hne : r.text ≠ [])
    (hrun : State.initial.run r.rest = .ended ⟨stack, .done t⟩) :
    r.next = (.ok t, { r with rest := [] }) := by
  rw [next, if_neg (by simpa using hne), hrun]

theorem next_of_unfinished {σ : State} (hne : r.text ≠ []) (hσ : σ.Unfinished)
    (hrun : State.initial.run r.rest = .ended σ) :
    r.next = (.error (.unexpectedEnd (byteLength r.text)), { r with rest := [] }) := by
  rw [next, if_neg (by simpa using hne), hrun]
  obtain ⟨stack, point⟩ := σ
  cases point with
  | done t => exact absurd rfl (hσ t)
  | _ => rfl

theorem next_of_refused {reason : Refusal} {c : Char} {behind : List Char} (hne : r.text ≠ [])
    (hrun : State.initial.run r.rest = .refused reason c behind) :
    r.next = (.error (reason.errorAt c (r.offsetOf (c :: behind))),
      { r with rest := if reason.consumes then behind else c :: behind }) := by
  rw [next, if_neg (by simpa using hne), hrun]
  dsimp only
  rw [errorAt_eq]

/-- The place of a reader, outside of all argument lists. -/
def place (r : Reader) : Place := ⟨r.rest, r.position, 0⟩

theorem place_at (hsuffix : r.rest <:+ r.text) : r.place.At (byteLength r.text) 0 := by
  obtain ⟨front, hfront⟩ := hsuffix
  refine ⟨rfl, Nat.sub_add_cancel ?_⟩
  rw [← hfront, byteLength_append]
  exact Nat.le_add_left _ _

theorem place_eq_of_at {q : Place} (hq : q.At (byteLength r.text) 0) :
    q = place { r with rest := q.rest } := by
  have hposition : q.position = byteLength r.text - byteLength q.rest := Nat.eq_sub_of_add_eq hq.size_eq
  obtain ⟨rest, o, d⟩ := q
  obtain rfl : d = 0 := hq.depth_eq
  rw [show o = _ from hposition]
  rfl

end Reader

namespace Descent

/-- **A call on a reader, by descent, answers as the machine does** and stops where the machine stops, with no
argument list open.  So it is with the full budget and with every larger one. -/
theorem wholeSignature_eq_next_of_le {r : Reader} {budget : Nat} (hbudget : fullBudget ≤ budget)
    (hsuffix : r.rest <:+ r.text) :
    outcome (wholeSignature budget r.text) r.place = (r.next.1.mapError .error, r.next.2.place) := by
  by_cases hempty : r.text = []
  · rw [Reader.next_of_empty hempty, hempty]
    rfl
  have hagrees : Agrees (byteLength r.text) 0 (State.initial.run r.rest)
      (fun t rest => rest = [] ∧ State.initial.run r.rest = .ended ⟨[], .done t⟩)
      (outcome (wholeSignature budget r.text) r.place) := by
    change Agrees _ _ _ _ (outcome (if r.text.isEmpty then _ else _) _)
    rw [if_neg (by simpa using hempty)]
    refine (agrees_signature hbudget (Reader.place_at hsuffix) rfl).bind ?_
    rintro t ⟨rest, o, d⟩ hq hrun
    cases rest with
    | nil => exact .ok hq ⟨rfl, hrun⟩
    | cons c cs =>
      have hdone : (State.initial.run r.rest).Awaits (State.step ⟨[], .done t⟩) (c :: cs) := hrun
      exact .front hq hdone rfl rfl
  generalize outcome (wholeSignature budget r.text) r.place = result at hagrees ⊢
  cases hagrees with
  | ok hq hpost =>
    obtain ⟨hrest, hrun⟩ := hpost
    rw [Reader.next_of_done hempty hrun, Reader.place_eq_of_at hq, hrest]
    rfl
  | ended hq hrest hσ hrun =>
    rw [Reader.next_of_unfinished hempty hσ hrun, Reader.place_eq_of_at hq, hrest]
    rfl
  | refused hq hrest hrun =>
    rw [Reader.next_of_refused hempty hrun, Reader.place_eq_of_at hq, hrest]
    rfl

theorem wholeSignature_eq_next {r : Reader} (hsuffix : r.rest <:+ r.text) :
    outcome (wholeSignature fullBudget r.text) r.place = (r.next.1.mapError .error, r.next.2.place) :=
  wholeSignature_eq_next_of_le (Nat.le_refl _) hsuffix

end Descent

end ClassMetadata
