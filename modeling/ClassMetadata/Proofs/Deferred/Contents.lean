import ClassMetadata.Environment
import ClassMetadata.Proofs.Resolution
import ClassMetadata.Proofs.Deferred.Outcome
import ClassMetadata.Proofs.Live.Construction
import ClassMetadata.Proofs.Live.Parts

/-!
# What is in the results

Resolution and materialization take what they put into a result from three places: the classes of the
registry, the scope and the tree that was given to them.  The annotations that are new are built from
these.  So a property of annotations that construction establishes, whatever its arguments are, passes from
the three places to every result, also to what was built before a failure.

* `Registry.Sources P scope`: the classes of the registry and the scope hold only annotations that are `P`;
* `Registry.each_of_resolve`: then so does a resolved type;
* `Class.each_of_construct`: **what a new annotation holds**;
* `Call.made?`, `Traced.Keeps`: the annotations built on the way; `keeps_value`, `keeps_node`: **all of
  them, and the result, hold only annotations that are `P`**.
-/

namespace ClassMetadata

variable {P : Live.Annotation Class → Prop}

/-! ### resolved types -/

namespace Registry

variable {r : Registry} {scope : Class}

theorem mem_of_lookup {name : String} {c : Class} (h : r.lookup name = some c) : c ∈ r.classes :=
  List.mem_of_find?_eq_some h

/-- Around a class there are only registered classes. -/
theorem mem_of_mem_chainFrom {n : Nat} {seen : List String} {inner c : Class}
    (h : c ∈ r.chainFrom n seen inner) : c = inner ∨ c ∈ r.classes := by
  induction n generalizing seen inner with
  | zero => cases h
  | succ n ih =>
    rw [chainFrom] at h
    by_cases hseen : inner.name ∈ seen
    · rw [if_pos hseen] at h
      cases h
    · rw [if_neg hseen] at h
      rcases List.mem_cons.mp h with rfl | h
      · exact .inl rfl
      · right
        cases houter : r.enclosing? inner with
        | none =>
          rw [houter] at h
          cases h
        | some outer =>
          rw [houter] at h
          obtain ⟨name, -, hlookup⟩ := Option.bind_eq_some_iff.mp houter
          rcases ih h with rfl | hmem
          · exact mem_of_lookup hlookup
          · exact hmem

/-- The classes that a resolved type can refer to hold only annotations that are `P`. -/
structure Sources (r : Registry) (P : Live.Annotation Class → Prop) (scope : Class) : Prop where
  registered : ∀ c ∈ r.classes, (Thing.handle c).Each P
  scope : (Thing.handle scope).Each P

theorem Sources.each_of_findVariable (hs : r.Sources P scope) {name : String} {t : ResolvedType Class}
    (h : r.findVariable scope name = .ok t) : (Thing.type t).Each P := by
  unfold findVariable at h
  split at h
  · rename_i c hc
    cases h
    rcases mem_of_mem_chainFrom (List.mem_of_find?_eq_some hc) with rfl | hmem
    · exact Thing.each_typeVariable.mpr hs.scope
    · exact Thing.each_typeVariable.mpr (hs.registered c hmem)
  · cases h

theorem each_segmentType {raw : Class} {ts : List (ResolvedType Class)}
    {owner : Option (ResolvedType Class)} (hraw : (Thing.handle raw).Each P)
    (hts : ∀ t ∈ ts, (Thing.type t).Each P) (howner : ∀ t, owner = some t → (Thing.type t).Each P) :
    (Thing.type (segmentType raw ts owner)).Each P := by
  unfold segmentType
  split
  · exact Thing.each_classType.mpr hraw
  · exact Thing.each_parameterized.mpr ⟨hraw, hts, howner⟩

mutual

theorem each_of_resolveTree (hs : r.Sources P scope) : ∀ (s : Signature) {t : ResolvedType Class},
    r.resolveTree scope s = .ok t → (Thing.type t).Each P
  | .base _, t, h => by
    cases h
    exact Thing.each_primitive _
  | .void, t, h => by
    cases h
    exact Thing.each_void
  | .array component, t, h => by
    obtain ⟨u, hu, h⟩ := bind_eq_ok.mp h
    cases h
    exact Thing.each_arrayType.mpr (each_of_resolveTree hs component hu)
  | .typeVariable name, t, h => hs.each_of_findVariable h
  | .classType path, t, h => by
    rw [resolveTree] at h
    split at h
    · refine each_of_resolvePath hs path ?_ h
      exact fun _ hnone => nomatch hnone
    · obtain ⟨c, hc, h⟩ := bind_eq_ok.mp h
      cases h
      exact Thing.each_classType.mpr (hs.registered c (mem_of_lookup (find_eq_ok_iff.mp hc)))

theorem each_of_resolvePath (hs : r.Sources P scope) : ∀ (path : List Segment) {outer : Option String}
    {owner : Option (ResolvedType Class)} {t : ResolvedType Class},
    (∀ u, owner = some u → (Thing.type u).Each P) →
    r.resolvePath scope outer owner path = .ok t → (Thing.type t).Each P
  | [], _, owner, t, howner, h => by
    cases owner with
    | none => cases h
    | some u =>
      cases h
      exact howner _ rfl
  | ⟨name, arguments⟩ :: rest, outer, owner, t, howner, h => by
    obtain ⟨raw, ts, hraw, hts, h⟩ := resolvePath_cons_eq_ok h
    have hsegment : (Thing.type (segmentType raw ts owner)).Each P :=
      each_segmentType (hs.registered raw (mem_of_lookup hraw))
        (each_of_resolveArguments hs arguments hts) howner
    exact each_of_resolvePath hs rest (fun u hu => Option.some.inj hu ▸ hsegment) h

theorem each_of_resolveArgument (hs : r.Sources P scope) : ∀ (argument : TypeArgument)
    {t : ResolvedType Class}, r.resolveArgument scope argument = .ok t → (Thing.type t).Each P
  | .unbounded, t, h => by
    cases h
    exact Thing.each_wildcard.mpr ⟨nofun, nofun⟩
  | .exactly s, t, h => each_of_resolveTree hs s h
  | .upperBound s, t, h => by
    obtain ⟨u, hu, h⟩ := bind_eq_ok.mp h
    cases h
    exact Thing.each_wildcard.mpr ⟨by simpa using each_of_resolveTree hs s hu, nofun⟩
  | .lowerBound s, t, h => by
    obtain ⟨u, hu, h⟩ := bind_eq_ok.mp h
    cases h
    exact Thing.each_wildcard.mpr ⟨nofun, by simpa using each_of_resolveTree hs s hu⟩

theorem each_of_resolveArguments (hs : r.Sources P scope) : ∀ (arguments : List TypeArgument)
    {ts : List (ResolvedType Class)},
    r.resolveArguments scope arguments = .ok ts → ∀ t ∈ ts, (Thing.type t).Each P
  | [], ts, h => by
    cases h
    exact nofun
  | argument :: rest, ts, h => by
    obtain ⟨t, ht, h⟩ := bind_eq_ok.mp h
    obtain ⟨us, hus, h⟩ := bind_eq_ok.mp h
    cases h
    exact List.forall_mem_cons.mpr
      ⟨each_of_resolveArgument hs argument ht, each_of_resolveArguments hs rest hus⟩

end

/-- **A resolved type refers to registered classes and to the scope.** -/
theorem each_of_resolve (hs : r.Sources P scope) {text : String} {t : ResolvedType Class}
    (h : r.resolve text scope = .ok t) : (Thing.type t).Each P := by
  unfold resolve at h
  cases hparse : Signature.parse text with
  | error e =>
    rw [hparse] at h
    cases h
  | ok s =>
    rw [hparse] at h
    exact each_of_resolveTree hs s h

end Registry

/-! ### constructed annotations -/

/-- Construction gives annotations that are `P`, whatever it is given. -/
def Class.Establishes (P : Live.Annotation Class → Prop) : Prop :=
  ∀ (c : Class) values a, c.construct values = .ok a → P a

/-- **A new annotation holds what its class and its values hold**, besides itself. -/
theorem Class.each_of_construct {c : Class} {values : List (String × Live.Value Class)}
    {a : Live.Annotation Class} (h : c.construct values = .ok a) (hc : (Thing.handle c).Each P)
    (hvalues : ∀ entry ∈ values, (Thing.value entry.2).Each P) (ha : P a) :
    (Thing.live a).Each P := by
  refine Thing.each_live.mpr ⟨ha, by rwa [type_of_construct h], ?_⟩
  rintro ⟨name, v⟩ hv
  obtain ⟨front, e, back, hsplit, rfl, -, hsuits⟩ := declaration_of_construct h hv
  rcases hsuits.origin with hsupplied | hdefault
  · exact hvalues _ hsupplied
  · exact Thing.each_handle.mp hc e (by simp [hsplit]) v hdefault

/-! ### materialization -/

namespace Deferred

/-- The annotation that a call to build one gives in an environment. -/
def Call.made? : Call → Option (Live.Annotation Class)
  | .resolve _ _ => none
  | .build type values => (type.construct values).toOption

/-- Whatever is built on the way holds only what `P` is true of, and a result is as `Q` says. -/
structure Traced.Keeps {α : Type} (P : Live.Annotation Class → Prop) (Q : α → Prop) (x : Traced α) :
    Prop where
  made : ∀ call ∈ x.calls, ∀ a, call.made? = some a → (Thing.live a).Each P
  result : ∀ b, x.result = .ok b → Q b

section Environment

variable {env : Environment} {scope : Class}

namespace Traced.Keeps

variable {α β : Type} {Q : α → Prop} {R : β → Prop}

/-- An outcome without calls. -/
theorem of_no_calls {result : Except MaterializeError α} (h : ∀ a, result = .ok a → Q a) :
    Keeps P Q ⟨[], result⟩ where
  made := by simp
  result := h

theorem pure {a : α} (h : Q a) : Keeps P Q ⟨[], .ok a⟩ :=
  of_no_calls fun _ hb => Except.ok.inj hb ▸ h

/-- What one part keeps, the next one starts from. -/
theorem bind {x : Asking α} {f : α → Asking β} (hx : (x (env.context scope)).Keeps P Q)
    (hf : ∀ a, Q a → (f a (env.context scope)).Keeps P R) :
    ((x >>= f) (env.context scope)).Keeps P R := by
  rcases h : x (env.context scope) with ⟨calls, e | a⟩
  · rw [h] at hx
    rw [Asking.bind_of_error h]
    exact ⟨hx.made, nofun⟩
  · rw [h] at hx
    rw [Asking.bind_of_ok h, env.steady_context scope]
    have hrest := hf a (hx.result a rfl)
    exact ⟨List.forall_mem_append.mpr ⟨hx.made, hrest.made⟩, hrest.result⟩

end Traced.Keeps

theorem keeps_descend (depth : Nat) : (descend depth (env.context scope)).Keeps P fun _ => True :=
  .of_no_calls fun _ _ => trivial

theorem keeps_askType (hs : env.registry.Sources P scope) (signature : String) :
    (askType signature (env.context scope)).Keeps P fun t => (Thing.type t).Each P where
  made := by
    intro call hcall a ha
    obtain rfl := List.mem_singleton.mp hcall
    cases ha
  result := fun _ ht => Registry.each_of_resolve hs (mapError_eq_ok_iff.mp ht)

theorem keeps_askBuild (hP : Class.Establishes P) {c : Class}
    {values : List (String × Live.Value Class)}
    (hc : (Thing.handle c).Each P) (hvalues : ∀ entry ∈ values, (Thing.value entry.2).Each P) :
    (askBuild c values (env.context scope)).Keeps P fun a => (Thing.live a).Each P := by
  have hbuild : ∀ a, c.construct values = .ok a → (Thing.live a).Each P :=
    fun a ha => Class.each_of_construct ha hc hvalues (hP c values a ha)
  refine ⟨fun call hcall a ha => ?_, fun a ha => hbuild a (askBuild_eq_ok_iff.mp ha)⟩
  obtain rfl := List.mem_singleton.mp hcall
  change (c.construct values).toOption = some a at ha
  cases hresult : c.construct values with
  | error e => simp [hresult, Except.toOption] at ha
  | ok b =>
    obtain rfl : b = a := by simpa [hresult, Except.toOption] using ha
    exact hbuild b hresult

mutual

theorem keeps_value (hP : Class.Establishes P) (hs : env.registry.Sources P scope) :
    ∀ (depth : Nat) (v : Value), (Thing.deferred v).Each P →
    (v.materializeAt depth (env.context scope)).Keeps P fun live => (Thing.value live).Each P
  | _, .literal l, _ => .pure (Thing.each_literal l)
  | _, .classLiteral signature, _ =>
    (keeps_askType hs signature).bind fun _ ht => .pure (Thing.each_classLiteral.mpr ht)
  | _, .enumConstant signature constant, _ => by
    refine (keeps_askType hs signature).bind fun type htype => ?_
    refine .bind (Q := fun c => (Thing.handle c).Each P) (.of_no_calls fun c hc => ?_) fun c hc => ?_
    · obtain ⟨rfl, -⟩ := enumOf_eq_ok_iff.mp hc
      exact Thing.each_classType.mp htype
    · refine .of_no_calls fun live hlive => ?_
      obtain ⟨i, -, rfl⟩ := constantOf_eq_ok_iff.mp hlive
      exact Thing.each_enumConstant.mpr hc
  | depth, .nested node, h =>
    (keeps_descend depth).bind fun d _ =>
      (keeps_node hP hs d node (Thing.each_nestedNode.mp h)).bind
        fun _ ha => .pure (Thing.each_nested.mpr ha)
  | depth, .array elements, h =>
    (keeps_descend depth).bind fun d _ =>
      (keeps_list hP hs d elements (Thing.each_deferredArray.mp h)).bind
        fun _ hvs => .pure (Thing.each_array.mpr hvs)

theorem keeps_list (hP : Class.Establishes P) (hs : env.registry.Sources P scope) :
    ∀ (depth : Nat) (vs : List Value), (∀ v ∈ vs, (Thing.deferred v).Each P) →
    (Value.materializeList depth vs (env.context scope)).Keeps P
      fun lives => ∀ live ∈ lives, (Thing.value live).Each P
  | _, [], _ => .pure nofun
  | depth, v :: vs, h => by
    obtain ⟨hv, hvs⟩ := List.forall_mem_cons.mp h
    refine (keeps_value hP hs depth v hv).bind fun live hlive => ?_
    exact (keeps_list hP hs depth vs hvs).bind
      fun _ hlives => .pure (List.forall_mem_cons.mpr ⟨hlive, hlives⟩)

theorem keeps_node (hP : Class.Establishes P) (hs : env.registry.Sources P scope) :
    ∀ (depth : Nat) (node : Node), (Thing.node node).Each P →
    (node.materializeAt depth (env.context scope)).Keeps P fun a => (Thing.live a).Each P
  | _, .resolved a, h => .pure (Thing.each_resolved.mp h)
  | depth, .descriptor signature attributes, h => by
    refine (keeps_askType hs signature).bind fun type htype => ?_
    refine .bind (Q := fun c => (Thing.handle c).Each P) (.of_no_calls fun c hc => ?_) fun c hc => ?_
    · obtain rfl := classOf_eq_ok_iff.mp hc
      exact Thing.each_classType.mp htype
    · refine (keeps_entries hP hs depth attributes (Thing.each_descriptor.mp h)).bind ?_
      exact fun values hvalues => keeps_askBuild hP hc hvalues

theorem keeps_entries (hP : Class.Establishes P) (hs : env.registry.Sources P scope) :
    ∀ (depth : Nat) (attributes : List (String × Value)),
    (∀ entry ∈ attributes, (Thing.deferred entry.2).Each P) →
    (Value.materializeEntries depth attributes (env.context scope)).Keeps P
      fun values => ∀ entry ∈ values, (Thing.value entry.2).Each P
  | _, [], _ => .pure nofun
  | depth, (name, v) :: rest, h => by
    obtain ⟨hv, hrest⟩ := List.forall_mem_cons.mp h
    refine (keeps_value hP hs depth v hv).bind fun live hlive => ?_
    exact (keeps_entries hP hs depth rest hrest).bind
      fun _ hvalues => .pure (List.forall_mem_cons.mpr ⟨hlive, hvalues⟩)

end

end Environment

end Deferred

end ClassMetadata
