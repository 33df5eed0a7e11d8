import ClassMetadata.Environment
import ClassMetadata.Proofs.Deferred.Outcome
import ClassMetadata.Proofs.Live.Rearrangement
import ClassMetadata.Proofs.Resolution
import ClassMetadata.Proofs.World

/-!
# Attributes in another order

Two trees that differ only in the order of attributes, at any number of places, are materialized with the
same success.  The two runs ask their questions in different orders, so they need not fail with one error,
and the values that they build annotations from come in different orders too.

* `Node.Alike`, `Value.Alike`: trees that are equal but for the order of attributes; `Node.Alike.of_perm`:
  permuting attributes gives such a tree;
* `agree_entries`: a failure among values that correspond by name is a failure wherever it stands;
* `Context.IgnoresOrder`: calls and the order of the values that an annotation is built from have no effect;
  `agree_value`, `agree_node`: **nor has then the order of attributes in a tree**;
* `Environment.HoldsMaps`: what is true of the environments of every program (`World.holdsMaps`), as it is of
  all things that it has (`World.each_distinct`);
  `Environment.materialize_rearranged`: **the order has no effect in any of them**.
-/

namespace ClassMetadata

namespace Deferred

open Live (SameNamed)

/-! ### trees but for the order of attributes -/

mutual

/-- Values that are equal but for the order of attributes.  Literals are equal bit by bit. -/
inductive Value.Alike : Value → Value → Prop
  | literal (l : Literal) : Value.Alike (.literal l) (.literal l)
  | classLiteral (signature : String) : Value.Alike (.classLiteral signature) (.classLiteral signature)
  | enumConstant (signature constant : String) :
    Value.Alike (.enumConstant signature constant) (.enumConstant signature constant)
  | nested {m n : Node} : Node.Alike m n → Value.Alike (.nested m) (.nested n)
  | array {vs ws : List Value} : Value.AllAlike vs ws → Value.Alike (.array vs) (.array ws)

/-- Place by place. -/
inductive Value.AllAlike : List Value → List Value → Prop
  | nil : Value.AllAlike [] []
  | cons {v w : Value} {vs ws : List Value} :
    Value.Alike v w → Value.AllAlike vs ws → Value.AllAlike (v :: vs) (w :: ws)

/-- Nodes that are equal but for the order of attributes, in them and at any depth below them. -/
inductive Node.Alike : Node → Node → Prop
  | resolved {a b : Live.Annotation Class} : a.same b = true → Node.Alike (.resolved a) (.resolved b)
  /-- maps of the same names, with values that are alike -/
  | descriptor (signature : String) {as bs : List (String × Value)} :
    (Entries.names as).Nodup → (Entries.names bs).Nodup →
    (∀ name, name ∈ Entries.names as ↔ name ∈ Entries.names bs) →
    (∀ name v w, as.lookup name = some v → bs.lookup name = some w → Value.Alike v w) →
    Node.Alike (.descriptor signature as) (.descriptor signature bs)

end

/-- Attributes that are exchanged place by place for ones that are alike, and put in another order. -/
theorem Node.Alike.of_perm {signature : String} {as cs bs : List (String × Value)}
    (hdistinct : (Entries.names as).Nodup) (hperm : cs.Perm bs)
    (hplaces : List.Forall₂ (fun a c => a.1 = c.1 ∧ Value.Alike a.2 c.2) as cs) :
    Node.Alike (.descriptor signature as) (.descriptor signature bs) := by
  have hnames : Entries.names as = Entries.names cs := Entries.names_of_forall₂ hplaces
  have hnames_perm : (Entries.names cs).Perm (Entries.names bs) := hperm.map Prod.fst
  have hcs : (Entries.names cs).Nodup := hnames ▸ hdistinct
  refine .descriptor signature hdistinct (hnames_perm.nodup hcs) ?_ ?_
  · intro name
    rw [hnames]
    exact hnames_perm.mem_iff
  · intro name v w hv hw
    rw [← Entries.lookup_perm hcs hperm] at hw
    obtain ⟨w', hw', hvw⟩ := (Entries.Correspond.of_forall₂ hplaces).of_lookup hv
    obtain rfl : w' = w := Option.some.inj (hw'.symm.trans hw)
    exact hvw

/-! ### steps of two materializations -/

section Steps

variable {α β γ δ : Type} {R : α → β → Prop} {S : γ → δ → Prop} {cx : Context}

theorem agree_bind (hcx : cx.Steady) {x : Asking α} {y : Asking β} {f : α → Asking γ} {g : β → Asking δ}
    (h : Agree R (x cx).result (y cx).result)
    (hfg : ∀ a b, R a b → Agree S (f a cx).result (g b cx).result) :
    Agree S ((x >>= f) cx).result ((y >>= g) cx).result := by
  rw [Asking.result_bind_of_steady hcx, Asking.result_bind_of_steady hcx]
  exact h.bind hfg

/-- After the same first step. -/
theorem agree_after (hcx : cx.Steady) (x : Asking α) {f : α → Asking γ} {g : α → Asking δ}
    (h : ∀ a, (x cx).result = .ok a → Agree S (f a cx).result (g a cx).result) :
    Agree S ((x >>= f) cx).result ((x >>= g) cx).result := by
  rw [Asking.result_bind_of_steady hcx, Asking.result_bind_of_steady hcx]
  exact .after (x cx).result h

end Steps

/-! ### the values of an annotation -/

section Entries

variable {cx : Context} {depth : Nat}

/-- Attributes that can all be materialized are. -/
theorem exists_materializeEntries (hcx : cx.Steady) {attributes : List (String × Value)}
    (h : ∀ entry ∈ attributes, ∃ live, (entry.2.materializeAt depth cx).result = .ok live) :
    ∃ lives, (Value.materializeEntries depth attributes cx).result = .ok lives := by
  induction attributes with
  | nil => exact ⟨[], rfl⟩
  | cons entry rest ih =>
    obtain ⟨name, v⟩ := entry
    obtain ⟨⟨live, hlive⟩, hrest⟩ := List.forall_mem_cons.mp h
    obtain ⟨lives, hlives⟩ := ih hrest
    refine ⟨(name, live) :: lives, ?_⟩
    rw [Value.materializeEntries]
    refine (Asking.result_bind_eq_ok_of_steady hcx).mpr ⟨live, hlive, ?_⟩
    exact (Asking.result_bind_eq_ok_of_steady hcx).mpr ⟨lives, hlives, rfl⟩

/-- What a name is looked up as is materialized to what it is looked up as afterwards. -/
theorem correspond_materializeEntries (hcx : cx.Steady) {attributes : List (String × Value)}
    {lives : List (String × Live.Value Class)}
    (h : (Value.materializeEntries depth attributes cx).result = .ok lives) :
    Entries.Correspond (fun v live => (v.materializeAt depth cx).result = .ok live) attributes lives := by
  induction attributes generalizing lives with
  | nil =>
    obtain rfl : [] = lives := Except.ok.inj h
    exact .nil
  | cons entry rest ih =>
    obtain ⟨name, v⟩ := entry
    rw [Value.materializeEntries] at h
    obtain ⟨live, hlive, h⟩ := (Asking.result_bind_eq_ok_of_steady hcx).mp h
    obtain ⟨others, hothers, rfl⟩ := result_map_eq_ok.mp h
    intro n
    rw [List.lookup_cons, List.lookup_cons]
    cases n == name with
    | true => exact .some hlive
    | false => exact ih hothers n

/-- Where each name has values on both sides that fail together, or on none, all of them fail together. -/
theorem agree_entries (hcx : cx.Steady) {as bs : List (String × Value)} (has : (Entries.names as).Nodup)
    (hbs : (Entries.names bs).Nodup)
    (h : Entries.Correspond
      (fun v w => Agree (fun x y => x.same y = true) (v.materializeAt depth cx).result
        (w.materializeAt depth cx).result) as bs) :
    Agree SameNamed (Value.materializeEntries depth as cx).result
      (Value.materializeEntries depth bs cx).result := by
  refine Agree.iff.mpr ⟨⟨?_, ?_⟩, ?_⟩
  · rintro ⟨lives, hlives⟩
    refine exists_materializeEntries hcx fun entry hentry => ?_
    obtain ⟨v, hv, hagree⟩ := h.flip.of_lookup (Entries.lookup_of_mem hbs hentry)
    obtain ⟨live, -, hlive⟩ := (correspond_materializeEntries hcx hlives).of_lookup hv
    exact (Agree.iff.mp hagree).1.mp ⟨live, hlive⟩
  · rintro ⟨lives, hlives⟩
    refine exists_materializeEntries hcx fun entry hentry => ?_
    obtain ⟨w, hw, hagree⟩ := h.of_lookup (Entries.lookup_of_mem has hentry)
    obtain ⟨live, -, hlive⟩ := (correspond_materializeEntries hcx hlives).of_lookup hw
    exact (Agree.iff.mp hagree).1.mpr ⟨live, hlive⟩
  · intro lives lives' hlives hlives'
    have hleft := correspond_materializeEntries hcx hlives
    have hright := correspond_materializeEntries hcx hlives'
    refine .of_names (fun name => ?_) fun name x y hx hy => ?_
    · rw [← hleft.mem_names_iff, h.mem_names_iff, hright.mem_names_iff]
    · obtain ⟨v, hv, hvx⟩ := hleft.flip.of_lookup hx
      obtain ⟨w, hw, hwy⟩ := hright.flip.of_lookup hy
      obtain ⟨w', hw', hagree⟩ := h.of_lookup hv
      obtain rfl : w' = w := Option.some.inj (hw'.symm.trans hw)
      exact (Agree.iff.mp hagree).2 x y hvx hwy

end Entries

/-! ### trees -/

/-- Collaborators without a state, of which the second builds an annotation of a class that a signature
resolves to from named values in any order alike. -/
structure Context.IgnoresOrder (cx : Context) : Prop where
  steady : cx.Steady
  build : ∀ signature c, cx.resolve [] signature cx.scope = .ok (.classType c) →
    ∀ values values', SameNamed values values' →
      Agree (fun a b => a.same b = true) (cx.build [] c values) (cx.build [] c values')

section Trees

variable {cx : Context}

mutual

theorem agree_value (hcx : cx.IgnoresOrder) : ∀ {v w : Value} (depth : Nat), v.Alike w →
    Agree (fun x y => x.same y = true) (v.materializeAt depth cx).result (w.materializeAt depth cx).result
  | _, _, _, .literal l => .ok (Live.Value.literal_same_iff.mpr rfl)
  | _, _, _, .classLiteral signature => by
    refine .self fun live hlive => ?_
    obtain ⟨t, -, rfl⟩ := materializeAt_classLiteral.mp hlive
    exact Live.Value.classLiteral_same_iff.mpr ⟨t, rfl, t.same_self⟩
  | _, _, _, .enumConstant signature constant => by
    refine .self fun live hlive => ?_
    obtain ⟨c, i, -, -, -, rfl⟩ := materializeAt_enumConstant.mp hlive
    exact Live.Value.enumConstant_same_iff.mpr ⟨c, rfl, BEq.rfl⟩
  | _, _, depth, .nested hnodes => by
    rw [Value.materializeAt, Value.materializeAt]
    refine agree_after hcx.steady _ fun d _ => ?_
    refine agree_bind hcx.steady (agree_node hcx d hnodes) fun a b hab => .ok ?_
    exact Live.Value.nested_same_iff.mpr ⟨b, rfl, hab⟩
  | _, _, depth, .array helements => by
    rw [Value.materializeAt, Value.materializeAt]
    refine agree_after hcx.steady _ fun d _ => ?_
    refine agree_bind hcx.steady (agree_list hcx d helements) fun vs ws hsame => .ok ?_
    exact Live.Value.array_same_iff.mpr ⟨ws, rfl, hsame⟩

theorem agree_list (hcx : cx.IgnoresOrder) : ∀ {vs ws : List Value} (depth : Nat), Value.AllAlike vs ws →
    Agree (fun xs ys => Live.Value.sameAll xs ys = true) (Value.materializeList depth vs cx).result
      (Value.materializeList depth ws cx).result
  | _, _, _, .nil => .ok (Live.Value.nil_sameAll_iff.mpr rfl)
  | _, _, depth, .cons hv hvs => by
    rw [Value.materializeList, Value.materializeList]
    refine agree_bind hcx.steady (agree_value hcx depth hv) fun x y hxy => ?_
    refine agree_bind hcx.steady (agree_list hcx depth hvs) fun xs ys hsame => .ok ?_
    exact Live.Value.cons_sameAll_iff.mpr ⟨y, ys, rfl, hxy, hsame⟩

/-- **The order of attributes has no effect on the success of a node nor on its annotation.** -/
theorem agree_node (hcx : cx.IgnoresOrder) : ∀ {m n : Node} (depth : Nat), m.Alike n →
    Agree (fun a b => a.same b = true) (m.materializeAt depth cx).result (n.materializeAt depth cx).result
  | _, _, _, .resolved hsame => .ok hsame
  | _, _, depth, .descriptor signature has hbs hnames hvalues => by
    have hentries := agree_entries hcx.steady has hbs
      (.of_names hnames fun name v w hv hw => agree_value hcx depth (hvalues name v w hv hw))
    rw [Node.materializeAt, Node.materializeAt]
    refine agree_after hcx.steady _ fun type htype => ?_
    refine agree_after hcx.steady _ fun c hc => ?_
    refine agree_bind hcx.steady hentries fun values values' hsame => ?_
    obtain rfl := classOf_eq_ok_iff.mp hc
    have hbuilt := hcx.build signature c (mapError_eq_ok_iff.mp htype) values values' hsame
    exact hbuilt.mapError _

end

end Trees

end Deferred

/-! ### environments -/

/-- The annotations that the classes of an environment hold are maps: no name has two entries. -/
def Environment.HoldsMaps (env : Environment) : Prop :=
  ∀ c ∈ env.registry.classes, (Thing.handle c).Each Live.Annotation.Distinct

/-- No name of a sound annotation has two entries. -/
theorem Live.Annotation.Sound.distinct {a : Live.Annotation Class} (h : a.Sound) : a.Distinct := by
  unfold Distinct
  rw [h.names]
  exact Entries.nodup_eraseDups _

theorem World.distinct_of_contains {w : World} (h : w.Reachable) {a : Live.Annotation Class}
    (ha : w.Contains a) : a.Distinct := by
  have hsound : ∀ a, w.Contains a → a.Sound := forall_contains (fun _ _ _ => Class.sound_of_construct) h
  exact (hsound a ha).distinct

/-- The environments of a program are like this. -/
theorem World.holdsMaps {w : World} (h : w.Reachable) {env : Environment} (henv : env ∈ w.environments) :
    env.HoldsMaps :=
  (forall_contains_iff.mp fun _ => distinct_of_contains h).2 env henv

/-- So are the values and annotations that it has. -/
theorem World.each_distinct {w : World} (h : w.Reachable) {t : Thing} (ht : t ∈ w.things) :
    t.Each Live.Annotation.Distinct :=
  (forall_contains_iff.mp fun _ => distinct_of_contains h).1 t ht

namespace Environment

theorem ignoresOrder {env : Environment} (henv : env.HoldsMaps) (scope : Class) :
    (env.context scope).IgnoresOrder := by
  refine ⟨env.steady_context scope, fun signature c hresolved values values' hsame => ?_⟩
  obtain ⟨path, -, hlookup⟩ := Registry.resolve_eq_classType hresolved
  exact Class.agree_construct (henv c (Registry.mem_of_lookup hlookup)) hsame

/-- **Nodes that are equal but for the order of attributes, at any depth, are materialized both or neither,
and to annotations that are the same.** -/
theorem materialize_rearranged {env : Environment} (henv : env.HoldsMaps) (scope : Class)
    {m n : Deferred.Node} (h : m.Alike n) :
    ((∃ a, env.materialize m scope = .ok a) ↔ ∃ b, env.materialize n scope = .ok b) ∧
      ∀ a b, env.materialize m scope = .ok a → env.materialize n scope = .ok b → a.same b = true :=
  Agree.iff.mp (Deferred.agree_node (ignoresOrder henv scope) 0 h)

/-- A box whose attributes come in another order, and those of the tag in it too, is the same box; its mark
is filled in both times. -/
theorem box_rearranged :
    let tag := ((Class.named .annotationInterface "Tag").declare "name" (.literal .string) none).declare
      "level" (.literal (.base .int)) none
    let plainTag : Live.Annotation Class :=
      ⟨tag, [("name", .literal (.string "")), ("level", .literal (.int 0))]⟩
    let box := (((Class.named .annotationInterface "Box").declare "size" (.literal (.base .int)) none).declare
      "tag" (.nested "Tag") none).declare "mark" (.nested "Tag") (some (.nested plainTag))
    let env := Environment.ofRegistry ((Registry.empty.register tag).register box)
    let m : Deferred.Node := .descriptor "LBox;"
      [("tag", .nested (.descriptor "LTag;"
        [("name", .literal (.string "a")), ("level", .literal (.int 1))])), ("size", .literal (.int 3))]
    let n : Deferred.Node := .descriptor "LBox;"
      [("size", .literal (.int 3)), ("tag", .nested (.descriptor "LTag;"
        [("level", .literal (.int 1)), ("name", .literal (.string "a"))]))]
    env.HoldsMaps ∧ m.Alike n ∧
      ∃ a b, env.materialize m box = .ok a ∧ env.materialize n box = .ok b ∧ a.same b = true := by
  intro tag plainTag box env m n
  have htag : (Thing.handle tag).Each Live.Annotation.Distinct :=
    Thing.each_handle.mpr (List.forall_mem_cons.mpr ⟨nofun, List.forall_mem_singleton.mpr nofun⟩)
  have hplain : (Thing.value (.nested plainTag)).Each Live.Annotation.Distinct := by
    refine Thing.each_nested.mpr (Thing.each_live.mpr ⟨?_, htag, ?_⟩)
    · unfold Live.Annotation.Distinct
      decide
    · exact List.forall_mem_cons.mpr
        ⟨Thing.each_literal _, List.forall_mem_singleton.mpr (Thing.each_literal _)⟩
  have hbox : (Thing.handle box).Each Live.Annotation.Distinct := by
    refine Thing.each_handle.mpr (List.forall_mem_cons.mpr ⟨nofun, List.forall_mem_cons.mpr ⟨nofun, ?_⟩⟩)
    refine List.forall_mem_singleton.mpr fun v hv => ?_
    obtain rfl := Option.some.inj hv
    exact hplain
  have henv : env.HoldsMaps := List.forall_mem_cons.mpr ⟨htag, List.forall_mem_singleton.mpr hbox⟩
  have htags : Deferred.Node.Alike
      (.descriptor "LTag;" [("name", .literal (.string "a")), ("level", .literal (.int 1))])
      (.descriptor "LTag;" [("level", .literal (.int 1)), ("name", .literal (.string "a"))]) :=
    .of_perm (by decide) (.swap ..) (.cons ⟨rfl, .literal _⟩ (.cons ⟨rfl, .literal _⟩ .nil))
  have halike : m.Alike n :=
    .of_perm (by decide) (.swap ..) (.cons ⟨rfl, .nested htags⟩ (.cons ⟨rfl, .literal _⟩ .nil))
  obtain ⟨hsuccess, hsame⟩ := materialize_rearranged henv box halike
  have hm : ∃ a, env.materialize m box = .ok a := ⟨_, rfl⟩
  obtain ⟨b, hb⟩ := hsuccess.mp hm
  obtain ⟨a, ha⟩ := hm
  exact ⟨henv, halike, a, b, ha, hb, hsame a b ha hb⟩

end Environment

end ClassMetadata
