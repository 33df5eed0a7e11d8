import ClassMetadata.Proofs.Deferred.CallOrder
import ClassMetadata.Proofs.Deferred.TwoRuns

/-!
# The depth limit

How deep annotations and arrays stand in one another is a number of the tree, its nesting.  The limit is
compared with that number, a level at a time, on the way down.

* `Value.nesting`, `Node.nesting`: **the measure**;
* `Value.TypesFit`, `Node.TypesFit`: the types that resolve are of the kind that their places need, whatever
  calls were made before, so that only a collaborator or the limit can end a materialization;
* `MaterializeError.IsMisfit`: the errors that only a type of the wrong kind causes;
* `Traced.Bounded cx past fits kinds x`: behind the calls of `past`, `x` exceeds the limit only if not `fits`,
  has no result then, and fails on a type of the wrong kind only if not `kinds`.  `Bounded.bind` joins two
  parts, and the trees are taken case by case below a given depth;
* `Traced.CutOff`, `maxDepth_cuts_off`: **the limit only cuts off**: trees within it do not notice it, trees
  beyond it have no result, and a higher limit changes nothing else.
-/

namespace ClassMetadata

/-- A type is found and is not of the kind that its place needs, or it is an enum without the constant. -/
def MaterializeError.IsMisfit : MaterializeError → Prop
  | notAnEnum _ | notAClass _ | enumConstantNotFound _ _ => True
  | resolution _ | construction _ | depthLimitExceeded _ => False

namespace Deferred

/-! ### nesting -/

mutual

/-- How many annotations and arrays stand in one another at most, the value itself included. -/
def Value.nesting : Value → Nat
  | .nested node => node.nesting + 1
  | .array elements => Value.nestingAll elements + 1
  | .literal _ | .classLiteral _ | .enumConstant .. => 0

def Value.nestingAll : List Value → Nat
  | [] => 0
  | v :: vs => max v.nesting (Value.nestingAll vs)

/-- How deep annotations and arrays nest below the node. -/
def Node.nesting : Node → Nat
  | .resolved _ => 0
  | .descriptor _ attributes => Value.entriesNesting attributes

def Value.entriesNesting : List (String × Value) → Nat
  | [] => 0
  | (_, v) :: rest => max v.nesting (Value.entriesNesting rest)

end

/-! ### types of the required kind -/

mutual

/-- Every type in the value, whenever it resolves, is of the kind that it is needed for. -/
def Value.TypesFit (cx : Context) : Value → Prop
  | .enumConstant signature constant => ∀ past type, cx.resolve past signature cx.scope = .ok type →
    ∃ c i, type = .classType c ∧ c.isEnum ∧ c.ordinal? constant = some i
  | .nested node => node.TypesFit cx
  | .array elements => Value.AllTypesFit cx elements
  | .literal _ | .classLiteral _ => True

def Value.AllTypesFit (cx : Context) : List Value → Prop
  | [] => True
  | v :: vs => v.TypesFit cx ∧ Value.AllTypesFit cx vs

def Node.TypesFit (cx : Context) : Node → Prop
  | .resolved _ => True
  | .descriptor signature attributes =>
    (∀ past type, cx.resolve past signature cx.scope = .ok type → ∃ c, type = .classType c) ∧
      Value.EntriesTypesFit cx attributes

def Value.EntriesTypesFit (cx : Context) : List (String × Value) → Prop
  | [] => True
  | (_, v) :: rest => v.TypesFit cx ∧ Value.EntriesTypesFit cx rest

end

/-! ### outcomes and the limit -/

namespace Traced

/-- An outcome, behind the calls of `past`, that exceeds the limit only if not `fits`, and has no result then.
It can fail in two other ways, by a call that fails and by a type of the wrong kind, and not in the latter if
`kinds` is true. -/
structure Bounded {α : Type} (cx : Context) (past : List Call) (fits kinds : Prop) (x : Traced α) : Prop where
  within : fits → ∀ l, x.result ≠ .error (.depthLimitExceeded l)
  beyond : ¬ fits → ∀ a, x.result ≠ .ok a
  otherwise : (cx.behind past).NoneFails x.calls → ∀ e, x.result = .error e →
    e.IsMisfit ∨ e = .depthLimitExceeded cx.maxDepth
  suits : kinds → ∀ e, e.IsMisfit → x.result ≠ .error e

namespace Bounded

variable {α β : Type} {cx : Context} {past : List Call} {p q k j : Prop}

theorem pure (hp : p) (a : α) : Bounded cx past p k ⟨[], .ok a⟩ where
  within := fun _ _ => nofun
  beyond := fun hnot => absurd hp hnot
  otherwise := fun _ _ => nofun
  suits := fun _ _ _ => nofun

/-- A check that only refuses what does not suit. -/
theorem of_check {result : Except MaterializeError α} (hp : p)
    (hmisfit : ∀ e, result = .error e → e.IsMisfit) (hk : k → ∃ a, result = .ok a) :
    Bounded cx past p k ⟨[], result⟩ where
  within := fun _ l hl => hmisfit _ hl
  beyond := fun hnot => absurd hp hnot
  otherwise := fun _ e he => .inl (hmisfit e he)
  suits := by
    intro h e _ he
    obtain ⟨a, ha⟩ := hk h
    cases ha.symm.trans he

/-- The limit is exceeded in the first part or in the second one. -/
theorem bind {x : Asking α} {f : α → Asking β} (hx : (x (cx.behind past)).Bounded cx past p k)
    (hf : ∀ calls a, x (cx.behind past) = ⟨calls, .ok a⟩ →
      (f a (cx.behind (past ++ calls))).Bounded cx (past ++ calls) q j) :
    ((x >>= f) (cx.behind past)).Bounded cx past (p ∧ q) (k ∧ j) := by
  rcases h : x (cx.behind past) with ⟨calls, e | a⟩
  · rw [h] at hx
    rw [Asking.bind_of_error h]
    refine ⟨fun hpq l hl => ?_, fun _ _ => nofun, fun hcalls e' he => ?_, fun hkj e' hmisfit he => ?_⟩
    · exact hx.within hpq.1 l (congrArg Except.error (Except.error.inj hl))
    · exact hx.otherwise hcalls e' (congrArg Except.error (Except.error.inj he))
    · exact hx.suits hkj.1 e' hmisfit (congrArg Except.error (Except.error.inj he))
  · have hfa := hf calls a h
    rw [h] at hx
    rw [Asking.bind_of_ok h, Context.behind_behind]
    have hp : p := Classical.byContradiction fun hp => hx.beyond hp a rfl
    refine ⟨fun hpq => hfa.within hpq.2, fun hnot => hfa.beyond fun hq => hnot ⟨hp, hq⟩, fun hcalls => ?_,
      fun hkj => hfa.suits hkj.2⟩
    have hlater := (Context.noneFails_append.mp hcalls).2
    rw [Context.behind_behind] at hlater
    exact hfa.otherwise hlater

/-- The same condition in other words. -/
theorem congr {x : Traced α} (hx : x.Bounded cx past p k) (hpq : p ↔ q) (hjk : j → k) :
    x.Bounded cx past q j where
  within := fun hq => hx.within (hpq.mpr hq)
  beyond := fun hq => hx.beyond (mt hpq.mp hq)
  otherwise := hx.otherwise
  suits := fun hj => hx.suits (hjk hj)

/-- A last step that only puts the result together. -/
theorem map {x : Asking α} (hx : (x (cx.behind past)).Bounded cx past p k) (f : α → β) :
    ((x >>= fun a => Pure.pure (f a)) (cx.behind past)).Bounded cx past p k := by
  have h : ((x >>= fun a => Pure.pure (f a)) (cx.behind past)).Bounded cx past (p ∧ True) (k ∧ True) :=
    hx.bind fun _ a _ => pure trivial (f a)
  exact h.congr (and_iff_left trivial) fun hk => ⟨hk, trivial⟩

end Bounded

end Traced

/-! ### single questions -/

section Single

variable {cx : Context} {past : List Call} {depth : Nat}

/-- A call fails with its own error and is no matter of the limit. -/
theorem bounded_single {α : Type} {call : Call} {result : Except MaterializeError α}
    (hfailed : ∀ e, result = .error e → call.failure? (cx.behind past) = some e)
    (herror : ∀ e, result = .error e → ¬ e.IsMisfit ∧ ∀ l, e ≠ .depthLimitExceeded l) :
    Traced.Bounded cx past True True ⟨[call], result⟩ where
  within := fun _ l hl => (herror _ hl).2 l rfl
  beyond := fun hnot => absurd trivial hnot
  otherwise := by
    intro hcalls e he
    rw [Context.noneFails_singleton, hfailed e he] at hcalls
    cases hcalls
  suits := fun _ e hmisfit he => (herror e he).1 hmisfit

theorem bounded_askType (signature : String) :
    (askType signature (cx.behind past)).Bounded cx past True True := by
  refine bounded_single (fun e => Call.failure?_resolve.mpr) fun e he => ?_
  obtain ⟨cause, -, rfl⟩ := mapError_eq_error_iff.mp he
  refine ⟨id, fun l hl => ?_⟩
  cases hl

theorem bounded_askBuild (type : Class) (values : List (String × Live.Value Class)) :
    (askBuild type values (cx.behind past)).Bounded cx past True True := by
  refine bounded_single (fun e => Call.failure?_build.mpr) fun e he => ?_
  obtain ⟨cause, -, rfl⟩ := mapError_eq_error_iff.mp he
  refine ⟨id, fun l hl => ?_⟩
  cases hl

theorem isMisfit_of_enumOf {type : ResolvedType Class} {e : MaterializeError}
    (h : Context.enumOf type = .error e) : e.IsMisfit := by
  unfold Context.enumOf at h
  split at h
  · split at h <;> cases h
    trivial
  · cases h
    trivial

theorem isMisfit_of_constantOf {enum : Class} {constant : String} {e : MaterializeError}
    (h : Context.constantOf enum constant = .error e) : e.IsMisfit := by
  unfold Context.constantOf at h
  split at h <;> cases h
  trivial

theorem isMisfit_of_classOf {type : ResolvedType Class} {e : MaterializeError}
    (h : Context.classOf type = .error e) : e.IsMisfit := by
  unfold Context.classOf at h
  split at h <;> cases h
  trivial

/-- What a question for a type is answered with is what the signature resolves to behind the past. -/
theorem resolve_of_askType {signature : String} {calls : List Call} {type : ResolvedType Class}
    (h : askType signature (cx.behind past) = ⟨calls, .ok type⟩) :
    cx.resolve past signature cx.scope = .ok type := by
  have hresolved := (askType_eq_ok_iff.mp h).2
  rwa [Context.resolve_behind] at hresolved

/-- An enum constant whose type is looked at once it resolves. -/
theorem bounded_enumConstant {signature constant : String} :
    ((Value.enumConstant signature constant).materializeAt depth (cx.behind past)).Bounded cx past True
      ((Value.enumConstant signature constant).TypesFit cx) := by
  have hbounded : ((Value.enumConstant signature constant).materializeAt depth (cx.behind past)).Bounded cx
      past (True ∧ True ∧ True) (True ∧ (Value.enumConstant signature constant).TypesFit cx ∧
        (Value.enumConstant signature constant).TypesFit cx) := by
    refine (bounded_askType signature).bind fun _ type hasked => ?_
    have htype := resolve_of_askType hasked
    refine Traced.Bounded.bind (.of_check trivial (fun _ => isMisfit_of_enumOf) ?_) fun _ c hkind =>
      .of_check trivial (fun _ => isMisfit_of_constantOf) ?_
    · intro hfit
      obtain ⟨c, i, rfl, henum, -⟩ := hfit past type htype
      exact ⟨c, enumOf_eq_ok_iff.mpr ⟨rfl, henum⟩⟩
    · intro hfit
      obtain ⟨d, i, rfl, -, hi⟩ := hfit past type htype
      obtain ⟨⟨⟩, -⟩ := enumOf_eq_ok_iff.mp (ofResult_eq_ok_iff.mp hkind).2
      exact ⟨_, constantOf_eq_ok_iff.mpr ⟨i, hi, rfl⟩⟩
  exact hbounded.congr (by simp) fun hfit => ⟨trivial, hfit, hfit⟩

/-- Going down a level exceeds the limit at the limit. -/
theorem bounded_descend :
    (descend depth (cx.behind past)).Bounded cx past (depth + 1 ≤ cx.maxDepth) True := by
  unfold descend
  by_cases h : cx.maxDepth < depth + 1
  · rw [Context.maxDepth_behind, if_pos h]
    exact ⟨fun hfits => absurd h (by omega), fun _ _ => nofun,
      fun _ _ he => .inr (Except.error.inj he).symm, fun _ _ hmisfit he => by cases he; exact hmisfit⟩
  · rw [Context.maxDepth_behind, if_neg h]
    exact .pure (by omega) _

end Single

/-! ### trees -/

mutual

theorem bounded_value (cx : Context) : ∀ (past : List Call) (depth : Nat) (v : Value), depth ≤ cx.maxDepth →
    (v.materializeAt depth (cx.behind past)).Bounded cx past (depth + v.nesting ≤ cx.maxDepth)
      (v.TypesFit cx)
  | _, _, .literal _, h => .pure h _
  | past, depth, .classLiteral signature, h => by
    have hasked : (askType signature (cx.behind past)).Bounded cx past True True := bounded_askType signature
    have hbounded := hasked.map fun t => Live.Value.classLiteral t
    exact hbounded.congr (iff_of_true trivial h) fun _ => trivial
  | _, _, .enumConstant _ _, h => bounded_enumConstant.congr (iff_of_true trivial h) id
  | past, depth, .nested node, h => by
    have hbounded : ((Value.nested node).materializeAt depth (cx.behind past)).Bounded cx past
        (depth + 1 ≤ cx.maxDepth ∧ depth + 1 + node.nesting ≤ cx.maxDepth) (True ∧ node.TypesFit cx) := by
      refine bounded_descend.bind fun calls d hd => ?_
      obtain ⟨-, hlt, rfl⟩ := descend_eq_ok_iff.mp hd
      exact (bounded_node cx (past ++ calls) (depth + 1) node hlt).map _
    refine hbounded.congr ?_ fun hfit => ⟨trivial, hfit⟩
    rw [Value.nesting]
    omega
  | past, depth, .array elements, h => by
    have hbounded : ((Value.array elements).materializeAt depth (cx.behind past)).Bounded cx past
        (depth + 1 ≤ cx.maxDepth ∧ depth + 1 + Value.nestingAll elements ≤ cx.maxDepth)
        (True ∧ Value.AllTypesFit cx elements) := by
      refine bounded_descend.bind fun calls d hd => ?_
      obtain ⟨-, hlt, rfl⟩ := descend_eq_ok_iff.mp hd
      exact (bounded_list cx (past ++ calls) (depth + 1) elements hlt).map _
    refine hbounded.congr ?_ fun hfit => ⟨trivial, hfit⟩
    rw [Value.nesting]
    omega

theorem bounded_list (cx : Context) : ∀ (past : List Call) (depth : Nat) (vs : List Value),
    depth ≤ cx.maxDepth →
    (Value.materializeList depth vs (cx.behind past)).Bounded cx past
      (depth + Value.nestingAll vs ≤ cx.maxDepth) (Value.AllTypesFit cx vs)
  | _, _, [], h => .pure h _
  | past, depth, v :: vs, h => by
    have hbounded := (bounded_value cx past depth v h).bind fun calls live _ =>
      (bounded_list cx (past ++ calls) depth vs h).map fun lives => live :: lives
    refine hbounded.congr ?_ id
    rw [Value.nestingAll]
    omega

theorem bounded_node (cx : Context) : ∀ (past : List Call) (depth : Nat) (node : Node),
    depth ≤ cx.maxDepth →
    (node.materializeAt depth (cx.behind past)).Bounded cx past (depth + node.nesting ≤ cx.maxDepth)
      (node.TypesFit cx)
  | _, _, .resolved _, h => .pure h _
  | past, depth, .descriptor signature attributes, h => by
    have hbounded : ((Node.descriptor signature attributes).materializeAt depth (cx.behind past)).Bounded cx
        past (True ∧ True ∧ depth + Value.entriesNesting attributes ≤ cx.maxDepth ∧ True)
        (True ∧ (Node.descriptor signature attributes).TypesFit cx ∧
          Value.EntriesTypesFit cx attributes ∧ True) := by
      refine (bounded_askType signature).bind fun asked type htype => ?_
      refine Traced.Bounded.bind (.of_check trivial (fun _ => isMisfit_of_classOf) ?_) fun _ c _ => ?_
      · intro hfit
        obtain ⟨c, rfl⟩ := hfit.1 past type (resolve_of_askType htype)
        exact ⟨c, rfl⟩
      · exact (bounded_entries cx _ depth attributes h).bind fun _ values _ => bounded_askBuild c values
    refine hbounded.congr ?_ fun hfit => ⟨trivial, hfit, hfit.2, trivial⟩
    simp [Node.nesting]

theorem bounded_entries (cx : Context) : ∀ (past : List Call) (depth : Nat)
    (attributes : List (String × Value)), depth ≤ cx.maxDepth →
    (Value.materializeEntries depth attributes (cx.behind past)).Bounded cx past
      (depth + Value.entriesNesting attributes ≤ cx.maxDepth) (Value.EntriesTypesFit cx attributes)
  | _, _, [], h => .pure h _
  | past, depth, (name, v) :: rest, h => by
    have hbounded := (bounded_value cx past depth v h).bind fun calls live _ =>
      (bounded_entries cx (past ++ calls) depth rest h).map fun values => (name, live) :: values
    refine hbounded.congr ?_ id
    rw [Value.entriesNesting]
    omega

end

/-! ### the limit of a context -/

/-- The same context with another limit. -/
def Context.limited (cx : Context) (limit : Nat) : Context := { cx with maxDepth := limit }

/-- The limit of a context only cuts off: `run` does the same with every higher limit unless it exceeds this
one, and whether it exceeds it is decided by the nesting. -/
structure Traced.CutOff {α : Type} (cx : Context) (nesting : Nat) (fit : Prop) (run : Context → Traced α) :
    Prop where
  /-- A higher limit changes nothing else. -/
  stable : ∀ limit, cx.maxDepth ≤ limit → (∀ l, (run cx).result ≠ .error (.depthLimitExceeded l)) →
    run (cx.limited limit) = run cx
  /-- What is not too deep does not exceed the limit. -/
  within : nesting ≤ cx.maxDepth → ∀ l, (run cx).result ≠ .error (.depthLimitExceeded l)
  /-- What is too deep has no result. -/
  beyond : cx.maxDepth < nesting → ∀ a, (run cx).result ≠ .ok a
  /-- It exceeds the limit, if no call fails and no type that is found is of the wrong kind. -/
  refused : cx.maxDepth < nesting → cx.NoneFails (run cx).calls →
    (∀ e, e.IsMisfit → (run cx).result ≠ .error e) →
    (run cx).result = .error (.depthLimitExceeded cx.maxDepth)
  /-- No type is of the wrong kind, if they all fit. -/
  suits : fit → ∀ e, e.IsMisfit → (run cx).result ≠ .error e

variable {cx : Context}

/-- A context with a higher limit agrees with one that has a lower limit, unless this is exceeded. -/
theorem agreesUnless_limited {limit : Nat} (h : cx.maxDepth ≤ limit) :
    cx.AgreesUnless (fun e => ∃ l, e = .depthLimitExceeded l) (cx.limited limit) where
  askType := fun _ _ => .refl _
  askBuild := fun _ _ _ => .refl _
  descend := by
    intro depth
    unfold descend
    by_cases hlow : cx.maxDepth < depth + 1
    · rw [if_pos hlow]
      exact .inr ⟨_, ⟨cx.maxDepth, rfl⟩, rfl⟩
    · have hhigh : ¬ (cx.limited limit).maxDepth < depth + 1 := by
        simp only [Context.limited]
        omega
      rw [if_neg hlow, if_neg hhigh]
      exact .refl _

theorem cutOff_of_bounded {α : Type} {nesting : Nat} {fit : Prop} {run : Context → Traced α}
    (hbounded : (run cx).Bounded cx [] (nesting ≤ cx.maxDepth) fit)
    (hsame : ∀ limit, cx.maxDepth ≤ limit →
      Traced.SameUnless (fun e => ∃ l, e = .depthLimitExceeded l) (run cx) (run (cx.limited limit))) :
    Traced.CutOff cx nesting fit run where
  stable := by
    intro limit hlimit hnot
    apply (hsame limit hlimit).eq
    rintro e ⟨l, rfl⟩
    exact hnot l
  within := hbounded.within
  beyond := fun hdeep => hbounded.beyond (by omega)
  refused := by
    intro hdeep hcalls hkinds
    cases hresult : (run cx).result with
    | ok a => exact absurd hresult (hbounded.beyond (by omega) a)
    | error e =>
      rcases hbounded.otherwise hcalls e hresult with hmisfit | rfl
      · exact absurd hresult (hkinds e hmisfit)
      · rfl
  suits := hbounded.suits

/-- **The depth limit of every context only cuts off**, for values and for nodes. -/
theorem maxDepth_cuts_off (cx : Context) :
    (∀ v : Value, Traced.CutOff cx v.nesting (v.TypesFit cx) fun cx => v.trace cx) ∧
      ∀ node : Node, Traced.CutOff cx node.nesting (node.TypesFit cx) fun cx => node.trace cx := by
  constructor
  · intro v
    have hbounded := bounded_value cx [] 0 v (Nat.zero_le _)
    rw [Nat.zero_add] at hbounded
    exact cutOff_of_bounded hbounded fun limit h => sameUnless_value (agreesUnless_limited h) 0 v
  · intro node
    have hbounded := bounded_node cx [] 0 node (Nat.zero_le _)
    rw [Nat.zero_add] at hbounded
    exact cutOff_of_bounded hbounded fun limit h => sameUnless_node (agreesUnless_limited h) 0 node

end Deferred

end ClassMetadata
