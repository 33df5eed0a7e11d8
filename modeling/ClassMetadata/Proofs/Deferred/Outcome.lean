import ClassMetadata.Deferred.Materialization

/-!
# What a result of a materialization tells

Materialization is a chain of questions that ends with the first failure, so a result tells how every one
of them was answered.  Here is one equivalence for every form of a tree; proofs about results go through
them and do not look at the chain again.

* `askType_eq_ok_iff`, `descend_eq_ok_iff`, `enumOf_eq_ok_iff`, …: the single questions, with their calls;
* `materializeAt_enumConstant`, `materializeAt_nested`, `materializeAt_descriptor`, …: **the trees**;
* `names_materializeEntries`: the values of an annotation keep their names and order.
-/

namespace ClassMetadata.Deferred

variable {cx : Context} {depth : Nat} {calls : List Call}

/-! ### questions -/

/-- Errors that are told otherwise are errors still. -/
theorem mapError_eq_ok_iff {ε ε' α : Type} {x : Except ε α} {f : ε → ε'} {a : α} :
    x.mapError f = .ok a ↔ x = .ok a := by
  constructor
  · intro h
    cases x with
    | error e => cases h
    | ok b =>
      cases h
      rfl
  · rintro rfl
    rfl

theorem mapError_eq_error_iff {ε ε' α : Type} {x : Except ε α} {f : ε → ε'} {e : ε'} :
    x.mapError f = .error e ↔ ∃ cause, x = .error cause ∧ f cause = e := by
  constructor
  · intro h
    cases x with
    | error cause =>
      cases h
      exact ⟨cause, rfl, rfl⟩
    | ok a => cases h
  · rintro ⟨cause, rfl, rfl⟩
    rfl

theorem ofResult_eq_ok_iff {α : Type} {result : Except MaterializeError α} {a : α} :
    Asking.ofResult result cx = ⟨calls, .ok a⟩ ↔ calls = [] ∧ result = .ok a := by
  rw [Asking.ofResult, Traced.mk.injEq, eq_comm (a := calls)]

theorem askType_eq_ok_iff {signature : String} {type : ResolvedType Class} :
    askType signature cx = ⟨calls, .ok type⟩ ↔
      calls = [.resolve signature cx.scope] ∧ cx.resolve [] signature cx.scope = .ok type := by
  rw [askType, Traced.mk.injEq, mapError_eq_ok_iff, eq_comm (a := calls)]

theorem askBuild_eq_ok_iff {c : Class} {values : List (String × Live.Value Class)}
    {a : Live.Annotation Class} :
    (askBuild c values cx).result = .ok a ↔ cx.build [] c values = .ok a :=
  mapError_eq_ok_iff

theorem descend_eq_ok_iff {below : Nat} :
    descend depth cx = ⟨calls, .ok below⟩ ↔ calls = [] ∧ depth < cx.maxDepth ∧ below = depth + 1 := by
  rw [descend, Traced.mk.injEq, eq_comm (a := calls)]
  refine and_congr_right fun _ => ?_
  by_cases h : cx.maxDepth < depth + 1
  · rw [if_pos h]
    constructor
    · intro hfail
      cases hfail
    · rintro ⟨hlt, -⟩
      omega
  · rw [if_neg h]
    constructor
    · intro hok
      cases hok
      exact ⟨by omega, rfl⟩
    · rintro ⟨-, rfl⟩
      rfl

theorem classOf_eq_ok_iff {type : ResolvedType Class} {c : Class} :
    Context.classOf type = .ok c ↔ type = .classType c := by
  cases type <;> simp [Context.classOf]

theorem enumOf_eq_ok_iff {type : ResolvedType Class} {c : Class} :
    Context.enumOf type = .ok c ↔ type = .classType c ∧ c.isEnum := by
  cases type with
  | classType d =>
    rw [Context.enumOf]
    by_cases hd : d.isEnum
    · rw [if_pos hd]
      constructor
      · rintro ⟨⟩
        exact ⟨rfl, hd⟩
      · rintro ⟨⟨⟩, -⟩
        rfl
    · rw [if_neg hd]
      constructor
      · intro h
        cases h
      · rintro ⟨⟨⟩, hc⟩
        exact absurd hc hd
  | _ => simp [Context.enumOf]

theorem constantOf_eq_ok_iff {enum : Class} {constant : String} {live : Live.Value Class} :
    Context.constantOf enum constant = .ok live ↔
      ∃ i, enum.ordinal? constant = some i ∧ live = .enumConstant enum constant i := by
  unfold Context.constantOf
  cases enum.ordinal? constant <;> simp [eq_comm]

/-! ### trees -/

theorem materializeAt_literal {l : Literal} {live : Live.Value Class} :
    ((Value.literal l).materializeAt depth cx).result = .ok live ↔ live = .literal l := by
  rw [Value.materializeAt, Asking.result_pure, Except.ok.injEq, eq_comm]

theorem materializeAt_classLiteral {signature : String} {live : Live.Value Class} :
    ((Value.classLiteral signature).materializeAt depth cx).result = .ok live ↔
      ∃ type, cx.resolve [] signature cx.scope = .ok type ∧ live = .classLiteral type := by
  rw [Value.materializeAt, Asking.result_bind_eq_ok]
  constructor
  · rintro ⟨_, type, htype, ⟨⟩⟩
    exact ⟨type, (askType_eq_ok_iff.mp htype).2, rfl⟩
  · rintro ⟨type, htype, rfl⟩
    exact ⟨_, type, askType_eq_ok_iff.mpr ⟨rfl, htype⟩, rfl⟩

theorem materializeAt_enumConstant {signature constant : String} {live : Live.Value Class} :
    ((Value.enumConstant signature constant).materializeAt depth cx).result = .ok live ↔
      ∃ c i, cx.resolve [] signature cx.scope = .ok (.classType c) ∧ c.isEnum ∧
        c.ordinal? constant = some i ∧ live = .enumConstant c constant i := by
  rw [Value.materializeAt]
  constructor
  · intro h
    obtain ⟨_, type, htype, hrest⟩ := Asking.result_bind_eq_ok.mp h
    obtain ⟨_, c, hc, hconstant⟩ := Asking.result_bind_eq_ok.mp hrest
    obtain ⟨rfl, henum⟩ := enumOf_eq_ok_iff.mp (ofResult_eq_ok_iff.mp hc).2
    obtain ⟨i, hi, rfl⟩ := constantOf_eq_ok_iff.mp hconstant
    exact ⟨c, i, (askType_eq_ok_iff.mp htype).2, henum, hi, rfl⟩
  · rintro ⟨c, i, htype, henum, hi, rfl⟩
    refine Asking.result_bind_eq_ok.mpr ⟨_, _, askType_eq_ok_iff.mpr ⟨rfl, htype⟩, ?_⟩
    have hc : Context.enumOf (.classType c) = .ok c := enumOf_eq_ok_iff.mpr ⟨rfl, henum⟩
    refine Asking.result_bind_eq_ok.mpr ⟨_, c, ofResult_eq_ok_iff.mpr ⟨rfl, hc⟩, ?_⟩
    exact constantOf_eq_ok_iff.mpr ⟨i, hi, rfl⟩

/-- Going down makes no calls, so what is inside is done in the same context. -/
theorem result_descend_bind_eq_ok {α : Type} {f : Nat → Asking α} {a : α} :
    ((descend depth >>= f) cx).result = .ok a ↔
      depth < cx.maxDepth ∧ (f (depth + 1) cx).result = .ok a := by
  rw [Asking.result_bind_eq_ok]
  constructor
  · rintro ⟨_, _, hdescend, hrest⟩
    obtain ⟨rfl, hlt, rfl⟩ := descend_eq_ok_iff.mp hdescend
    exact ⟨hlt, hrest⟩
  · rintro ⟨hlt, hrest⟩
    exact ⟨_, _, descend_eq_ok_iff.mpr ⟨rfl, hlt, rfl⟩, hrest⟩

theorem result_map_eq_ok {α β : Type} {x : Asking α} {f : α → β} {b : β} :
    ((x >>= fun a => pure (f a)) cx).result = .ok b ↔ ∃ a, (x cx).result = .ok a ∧ b = f a := by
  rw [Asking.result_bind_eq_ok]
  constructor
  · rintro ⟨_, a, ha, ⟨⟩⟩
    exact ⟨a, congrArg Traced.result ha, rfl⟩
  · rintro ⟨a, ha, rfl⟩
    exact ⟨(x cx).calls, a, by rw [← ha], rfl⟩

theorem materializeAt_nested {node : Node} {live : Live.Value Class} :
    ((Value.nested node).materializeAt depth cx).result = .ok live ↔
      depth < cx.maxDepth ∧
        ∃ a, (node.materializeAt (depth + 1) cx).result = .ok a ∧ live = .nested a := by
  rw [Value.materializeAt, result_descend_bind_eq_ok, result_map_eq_ok]

theorem materializeAt_array {vs : List Value} {live : Live.Value Class} :
    ((Value.array vs).materializeAt depth cx).result = .ok live ↔
      depth < cx.maxDepth ∧
        ∃ lives, (Value.materializeList (depth + 1) vs cx).result = .ok lives ∧ live = .array lives := by
  rw [Value.materializeAt, result_descend_bind_eq_ok, result_map_eq_ok]

theorem materializeAt_resolved {a live : Live.Annotation Class} :
    ((Node.resolved a).materializeAt depth cx).result = .ok live ↔ live = a := by
  rw [Node.materializeAt, Asking.result_pure, Except.ok.injEq, eq_comm]

theorem materializeAt_descriptor {signature : String} {attributes : List (String × Value)}
    {a : Live.Annotation Class} :
    ((Node.descriptor signature attributes).materializeAt depth cx).result = .ok a ↔
      ∃ c calls values, cx.resolve [] signature cx.scope = .ok (.classType c) ∧
        Value.materializeEntries depth attributes (cx.behind [.resolve signature cx.scope]) =
          ⟨calls, .ok values⟩ ∧
        cx.build (.resolve signature cx.scope :: calls) c values = .ok a := by
  rw [Node.materializeAt]
  constructor
  · intro h
    obtain ⟨_, type, hasked, hrest⟩ := Asking.result_bind_eq_ok.mp h
    obtain ⟨rfl, htype⟩ := askType_eq_ok_iff.mp hasked
    obtain ⟨_, c, hkind, hentries⟩ := Asking.result_bind_eq_ok.mp hrest
    obtain ⟨rfl, hc⟩ := ofResult_eq_ok_iff.mp hkind
    obtain rfl := classOf_eq_ok_iff.mp hc
    obtain ⟨calls, values, hvalues, hbuilt⟩ := Asking.result_bind_eq_ok.mp hentries
    refine ⟨c, calls, values, htype, hvalues, ?_⟩
    rw [askBuild_eq_ok_iff, Context.build_behind] at hbuilt
    exact hbuilt
  · rintro ⟨c, calls, values, htype, hvalues, hbuilt⟩
    refine Asking.result_bind_eq_ok.mpr ⟨_, _, askType_eq_ok_iff.mpr ⟨rfl, htype⟩, ?_⟩
    refine Asking.result_bind_eq_ok.mpr ⟨_, c, ofResult_eq_ok_iff.mpr ⟨rfl, classOf_eq_ok_iff.mpr rfl⟩, ?_⟩
    refine Asking.result_bind_eq_ok.mpr ⟨calls, values, hvalues, ?_⟩
    rw [askBuild_eq_ok_iff, Context.build_behind]
    exact hbuilt

/-! ### values by name -/

/-- The materialized values stand under the names of the attributes. -/
theorem names_materializeEntries {attributes : List (String × Value)}
    {values : List (String × Live.Value Class)}
    (h : (Value.materializeEntries depth attributes cx).result = .ok values) :
    Entries.names values = Entries.names attributes := by
  induction attributes generalizing values cx with
  | nil =>
    obtain rfl : [] = values := Except.ok.inj h
    rfl
  | cons entry rest ih =>
    obtain ⟨name, v⟩ := entry
    rw [Value.materializeEntries] at h
    obtain ⟨_, live, -, h⟩ := Asking.result_bind_eq_ok.mp h
    obtain ⟨lives, hlives, rfl⟩ := result_map_eq_ok.mp h
    simp only [Entries.names, List.map_cons] at ih ⊢
    rw [ih hlives]

end ClassMetadata.Deferred
