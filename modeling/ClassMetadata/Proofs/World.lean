import ClassMetadata.Proofs.Deferred.Contents

/-!
# Every annotation there is

A world is what a program that uses the library has at hand at some moment: its environments, and the
things that it has made or was given.  `World.Step` lists all that can happen to it.  A program puts classes,
values and trees together as it likes, but an annotation only comes out of a construction or out of a
materialization: whatever is put together may hold those annotations only that exist already.  Nothing is
ever taken away, so a class that another one has replaced in a registry stays with whatever refers to it.

* `World.Contains`: an annotation stands somewhere in a world, at any depth;
* `World.forall_contains_of_step`, `World.forall_contains`: a property that construction establishes is kept
  by every step, so it is true of every annotation in every world;
* `World.sound_of_reachable`: **every annotation that exists is complete and well typed**.
-/

namespace ClassMetadata

/-! ### registries -/

namespace Registry

theorem mem_of_mem_put {c d : Class} {cs : List Class} (h : d ∈ put c cs) : d = c ∨ d ∈ cs := by
  induction cs with
  | nil => exact .inl (List.mem_singleton.mp h)
  | cons e rest ih =>
    rw [put] at h
    split at h
    · rcases List.mem_cons.mp h with rfl | h
      · exact .inl rfl
      · exact .inr (List.mem_cons_of_mem _ h)
    · rcases List.mem_cons.mp h with rfl | h
      · exact .inr List.mem_cons_self
      · exact (ih h).imp_right (List.mem_cons_of_mem _)

theorem mem_of_mem_registerAll {r : Registry} {cs : List Class} {d : Class}
    (h : d ∈ (r.registerAll cs).classes) : d ∈ cs ∨ d ∈ r.classes := by
  induction cs generalizing r with
  | nil => exact .inr h
  | cons c rest ih =>
    rcases ih (r := r.register c) h with hrest | hr
    · exact .inl (List.mem_cons_of_mem _ hrest)
    · rcases mem_of_mem_put hr with rfl | hr
      · exact .inl List.mem_cons_self
      · exact .inr hr

theorem elements_of_mem_core {c : Class} (h : c ∈ core.classes) : c.elements = [] := by
  have hcore : ∀ d ∈ coreClasses, d.elements = [] := by
    simp [coreClasses, Class.named, Class.withTypeParameters]
  rcases mem_of_mem_registerAll h with hmem | hmem
  · exact hcore c hmem
  · cases hmem

end Registry

/-! ### worlds -/

structure World where
  environments : List Environment
  things : List Thing

/-- What there is after a materialization: the result, if there is one, and every annotation that was
built for it. -/
def Deferred.Traced.left {α : Type} (thing : α → Thing) (x : Traced α) : List Thing :=
  (x.result.toOption.map thing).toList ++ (x.calls.filterMap Call.made?).map .live

theorem Deferred.Traced.Keeps.each_left {P : Live.Annotation Class → Prop} {α : Type} {thing : α → Thing}
    {x : Traced α} (h : x.Keeps P fun b => (thing b).Each P) {t : Thing} (ht : t ∈ x.left thing) :
    t.Each P := by
  rcases List.mem_append.mp ht with ht | ht
  · cases hresult : x.result with
    | error e => simp [hresult, Except.toOption] at ht
    | ok b =>
      obtain rfl : t = thing b := by simpa [hresult, Except.toOption] using ht
      exact h.result b hresult
  · obtain ⟨a, ha, rfl⟩ := List.mem_map.mp ht
    obtain ⟨call, hcall, hmade⟩ := List.mem_filterMap.mp ha
    exact h.made call hcall a hmade

namespace World

/-- Nothing has happened. -/
def start : World := ⟨[], []⟩

/-- An annotation is somewhere: inside a thing or inside a class of a registry. -/
def Contains (w : World) (a : Live.Annotation Class) : Prop :=
  (∃ t ∈ w.things, Inside (.live a) t) ∨
    ∃ env ∈ w.environments, ∃ c ∈ env.registry.classes, Inside (.live a) (.handle c)

def add (w : World) (ts : List Thing) : World := { w with things := ts ++ w.things }

/-- What can happen.  Several nodes are materialized one after the other, and a construction that fails leaves
nothing. -/
inductive Step : World → World → Prop
  /-- an environment with a new registry, empty or with the core classes -/
  | newEnvironment (w : World) (core : Bool) (settings : Settings) :
    Step w { w with environments := ⟨if core then .core else .empty, settings⟩ :: w.environments }
  /-- a class takes the place of an older one of its name -/
  | register {w : World} {i : Nat} {env : Environment} {c : Class} :
    w.environments[i]? = some env → (Thing.handle c).Each w.Contains →
    Step w { w with
      environments := w.environments.set i { env with registry := env.registry.register c } }
  /-- a class, a value, a type or a tree is put together -/
  | assemble {w : World} {t : Thing} : t.Each w.Contains → Step w (w.add [t])
  | construct {w : World} {c : Class} {values : List (String × Live.Value Class)}
    {a : Live.Annotation Class} :
    (Thing.handle c).Each w.Contains → (∀ entry ∈ values, (Thing.value entry.2).Each w.Contains) →
    c.construct values = .ok a → Step w (w.add [.live a])
  | materializeNode {w : World} {env : Environment} {scope : Class} {node : Deferred.Node} :
    env ∈ w.environments → (Thing.handle scope).Each w.Contains → (Thing.node node).Each w.Contains →
    Step w (w.add ((node.trace (env.context scope)).left .live))
  | materializeValue {w : World} {env : Environment} {scope : Class} {v : Deferred.Value} :
    env ∈ w.environments → (Thing.handle scope).Each w.Contains → (Thing.deferred v).Each w.Contains →
    Step w (w.add ((v.trace (env.context scope)).left .value))

/-- A world that a program can come to. -/
abbrev Reachable (w : World) : Prop := Relation.ReflTransGen Step start w

variable {w w' : World} {P : Live.Annotation Class → Prop}

/-! ### what a step keeps -/

theorem forall_contains_iff :
    (∀ a, w.Contains a → P a) ↔
      (∀ t ∈ w.things, t.Each P) ∧
        ∀ env ∈ w.environments, ∀ c ∈ env.registry.classes, (Thing.handle c).Each P := by
  constructor
  · intro h
    constructor
    · intro t ht a ha
      exact h a (.inl ⟨t, ht, ha⟩)
    · intro env henv c hc a ha
      exact h a (.inr ⟨env, henv, c, hc, ha⟩)
  · rintro ⟨hthings, hclasses⟩ a (⟨t, ht, ha⟩ | ⟨env, henv, c, hc, ha⟩)
    · exact hthings t ht a ha
    · exact hclasses env henv c hc a ha

theorem forall_contains_add {ts : List Thing} (h : ∀ a, w.Contains a → P a) (hts : ∀ t ∈ ts, t.Each P) :
    ∀ a, (w.add ts).Contains a → P a := by
  obtain ⟨hthings, hclasses⟩ := forall_contains_iff.mp h
  refine forall_contains_iff.mpr ⟨?_, hclasses⟩
  intro t ht
  rcases List.mem_append.mp ht with hnew | hold
  · exact hts t hnew
  · exact hthings t hold

/-- **A property that construction establishes is kept by every step.** -/
theorem forall_contains_of_step (hP : Class.Establishes P) (hstep : Step w w')
    (h : ∀ a, w.Contains a → P a) : ∀ a, w'.Contains a → P a := by
  obtain ⟨hthings, hclasses⟩ := forall_contains_iff.mp h
  cases hstep with
  | newEnvironment core settings =>
    refine forall_contains_iff.mpr ⟨hthings, List.forall_mem_cons.mpr ⟨?_, hclasses⟩⟩
    intro c hc
    apply Thing.each_of_no_elements
    cases core with
    | true => exact Registry.elements_of_mem_core hc
    | false => cases hc
  | @register i env c henv hc =>
    refine forall_contains_iff.mpr ⟨hthings, ?_⟩
    intro env' henv' d hd
    rcases List.mem_or_eq_of_mem_set henv' with henv' | rfl
    · exact hclasses env' henv' d hd
    · rcases Registry.mem_of_mem_put hd with rfl | hd
      · exact hc.mono h
      · exact hclasses env (List.mem_of_getElem? henv) d hd
  | @assemble t ht =>
    have hassembled : t.Each P := ht.mono h
    exact forall_contains_add h (List.forall_mem_singleton.mpr hassembled)
  | @construct c values a hc hvalues ha =>
    have hgiven : ∀ entry ∈ values, (Thing.value entry.2).Each P := by
      intro entry hentry
      exact (hvalues entry hentry).mono h
    have hmade : (Thing.live a).Each P := Class.each_of_construct ha (hc.mono h) hgiven (hP c values a ha)
    exact forall_contains_add h (List.forall_mem_singleton.mpr hmade)
  | @materializeNode env scope node henv hscope hnode =>
    have hsources : env.registry.Sources P scope := ⟨hclasses env henv, hscope.mono h⟩
    have hkeeps := Deferred.keeps_node hP hsources 0 node (hnode.mono h)
    apply forall_contains_add h
    intro t ht
    exact hkeeps.each_left ht
  | @materializeValue env scope v henv hscope hv =>
    have hsources : env.registry.Sources P scope := ⟨hclasses env henv, hscope.mono h⟩
    have hkeeps := Deferred.keeps_value hP hsources 0 v (hv.mono h)
    apply forall_contains_add h
    intro t ht
    exact hkeeps.each_left ht

/-- **It is true of whatever exists.** -/
theorem forall_contains (hP : Class.Establishes P) (h : w.Reachable) : ∀ a, w.Contains a → P a := by
  induction h with
  | refl => exact forall_contains_iff.mpr ⟨nofun, nofun⟩
  | tail _ hstep ih => exact forall_contains_of_step hP hstep ih

/-- **Every annotation that exists has an annotation type, exactly the names that its type declares, each at
its first declaration, and values of the types of the last ones.** -/
theorem sound_of_reachable (h : w.Reachable) {a : Live.Annotation Class} (ha : w.Contains a) : a.Sound :=
  forall_contains (fun _ _ _ => Class.sound_of_construct) h a ha

/-- An annotation of a class that was replaced in its registry keeps to its own class, also in an array
next to one of the class that came in its place. -/
theorem sound_after_replacement :
    let old := (Class.named .annotationInterface "Level").declare "value" (.literal (.base .int))
      (some (.literal (.int 1)))
    let new := Class.named .annotationInterface "Level"
    let a : Live.Annotation Class := ⟨old, [("value", .literal (.int 1))]⟩
    let b : Live.Annotation Class := ⟨new, []⟩
    let env := Environment.ofRegistry (Registry.empty.register new)
    let w : World := ⟨[env], [.value (.array [.nested a, .nested b]), .live b, .live a]⟩
    w.Reachable ∧ w.Contains a ∧ a.Sound := by
  intro old new a b env w
  let w₁ : World := ⟨[.ofRegistry .empty], []⟩
  let w₂ : World := ⟨[.ofRegistry (Registry.empty.register old)], []⟩
  let w₃ : World := ⟨[.ofRegistry (Registry.empty.register old)], [.live a]⟩
  let w₄ : World := ⟨[env], [.live a]⟩
  have hold : ∀ P, (Thing.handle old).Each P := by
    intro P
    rw [Thing.each_handle]
    intro e he v hv
    obtain rfl := List.mem_singleton.mp he
    obtain rfl := Option.some.inj hv
    exact Thing.each_literal _
  have hnew : ∀ P, (Thing.handle new).Each P := fun P => Thing.each_of_no_elements rfl
  have hopen : Step start w₁ := .newEnvironment start false .standard
  have hregister : Step w₁ w₂ := Step.register (w := w₁) (i := 0) rfl (hold _)
  have hmake : old.construct [] = .ok a := rfl
  have hconstruct : Step w₂ w₃ := by
    refine Step.construct (hold _) ?_ hmake
    exact List.forall_mem_nil _
  have hreplace : Step w₃ w₄ := Step.register (w := w₃) (i := 0) rfl (hnew _)
  have htree : (Thing.deferred (.array [.nested (.resolved a), .nested (.descriptor "LLevel;" [])])).Each
      w₄.Contains := by
    refine Thing.each_deferredArray.mpr (List.forall_mem_cons.mpr ⟨?_, List.forall_mem_singleton.mpr ?_⟩)
    · rw [Thing.each_nestedNode, Thing.each_resolved]
      intro c hc
      exact .inl ⟨.live a, List.mem_singleton_self _, hc⟩
    · exact Thing.each_nestedNode.mpr (Thing.each_descriptor.mpr nofun)
  have henv : env ∈ w₄.environments := List.mem_singleton_self _
  have hmaterialize : Step w₄ w := Step.materializeValue henv (hnew _) htree
  have hreach : w.Reachable :=
    ((((Relation.ReflTransGen.single hopen).tail hregister).tail hconstruct).tail hreplace).tail hmaterialize
  have hcontains : w.Contains a := .inl ⟨.live a, by simp [w], .refl⟩
  exact ⟨hreach, hcontains, sound_of_reachable hreach hcontains⟩

end World

end ClassMetadata
