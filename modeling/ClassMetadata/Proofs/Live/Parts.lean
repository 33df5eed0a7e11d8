import ClassMetadata.Deferred.Node
import Mathlib.Logic.Relation

/-!
# What stands in what

Annotations are found in many places: in the entries of another one, in arrays, as the default of an
element, hence in every class and in every type and value that refers to the class, and in a deferred tree
that was given an annotation that is live.  `Part` has one rule for each place, and `Inside` is what the
rules come to.

* `Thing.Each P t`: every annotation inside `t`, at any depth and by way of any class, satisfies `P`;
* `Thing.each_live`, `Thing.each_array`, …: **one equivalence for every form of a thing**, so that
  proofs about `Each` do not look at paths.
-/

namespace ClassMetadata

/-- Whatever an annotation can stand in. -/
inductive Thing
  | live (a : Live.Annotation Class)
  | value (v : Live.Value Class)
  | type (t : ResolvedType Class)
  | handle (c : Class)
  | node (n : Deferred.Node)
  | deferred (v : Deferred.Value)

/-- `Part s t`: `s` stands in `t`, with nothing in between. -/
inductive Part : Thing → Thing → Prop
  -- live annotations and values
  | typeOf (a) : Part (.handle a.type) (.live a)
  | entry {a entry} : entry ∈ a.entries → Part (.value entry.2) (.live a)
  | literalType (t) : Part (.type t) (.value (.classLiteral t))
  | enumType (c name i) : Part (.handle c) (.value (.enumConstant c name i))
  | nested (a) : Part (.live a) (.value (.nested a))
  | element {v vs} : v ∈ vs → Part (.value v) (.value (.array vs))
  -- classes
  | byDefault {c e v} : e ∈ c.elements → e.default? = some v → Part (.value v) (.handle c)
  -- types
  | target (c) : Part (.handle c) (.type (.classType c))
  | component (t) : Part (.type t) (.type (.array t))
  | raw (c ts owner) : Part (.handle c) (.type (.parameterized c ts owner))
  | argument {c t ts owner} : t ∈ ts → Part (.type t) (.type (.parameterized c ts owner))
  | owner (c ts t) : Part (.type t) (.type (.parameterized c ts (some t)))
  | declaring (name c) : Part (.handle c) (.type (.typeVariable name c))
  | upperBound {t upper lower} : t ∈ upper → Part (.type t) (.type (.wildcard upper lower))
  | lowerBound {t upper lower} : t ∈ lower → Part (.type t) (.type (.wildcard upper lower))
  -- deferred trees
  | resolved (a) : Part (.live a) (.node (.resolved a))
  | given {signature entries entry} : entry ∈ entries →
      Part (.deferred entry.2) (.node (.descriptor signature entries))
  | nestedNode (n) : Part (.node n) (.deferred (.nested n))
  | deferredElement {v vs} : v ∈ vs → Part (.deferred v) (.deferred (.array vs))

/-- `s` stands in `t` at some depth; everything stands in itself. -/
abbrev Inside : Thing → Thing → Prop := Relation.ReflTransGen Part

namespace Thing

/-- Every annotation inside a thing satisfies `P`. -/
def Each (P : Live.Annotation Class → Prop) (t : Thing) : Prop := ∀ a, Inside (.live a) t → P a

variable {P : Live.Annotation Class → Prop}

theorem Each.mono {Q : Live.Annotation Class → Prop} {t : Thing} (h : t.Each P) (hPQ : ∀ a, P a → Q a) :
    t.Each Q :=
  fun a ha => hPQ a (h a ha)

/-- What is inside a part is inside the whole. -/
theorem Each.part {s t : Thing} (h : t.Each P) (hpart : Part s t) : s.Each P :=
  fun a ha => h a (ha.tail hpart)

/-- A thing that is no annotation holds what its parts hold. -/
theorem each_iff_parts {t : Thing} (ht : ∀ a, t ≠ .live a) : t.Each P ↔ ∀ s, Part s t → s.Each P := by
  constructor
  · intro h s hpart
    exact h.part hpart
  · intro h a ha
    rcases ha.cases_tail with rfl | ⟨s, hinside, hpart⟩
    · exact absurd rfl (ht a)
    · exact h s hpart a hinside

theorem each_of_single {s t : Thing} (ht : ∀ a, t ≠ .live a) (hpart : Part s t)
    (hsingle : ∀ u, Part u t → u = s) : t.Each P ↔ s.Each P := by
  rw [each_iff_parts ht]
  constructor
  · intro h
    exact h s hpart
  · intro h u hu
    rwa [hsingle u hu]

theorem each_of_no_parts {t : Thing} (ht : ∀ a, t ≠ .live a) (hparts : ∀ s, ¬ Part s t) : t.Each P := by
  rw [each_iff_parts ht]
  intro s hpart
  exact absurd hpart (hparts s)

/-! ### live annotations and values -/

theorem each_live {a : Live.Annotation Class} :
    (live a).Each P ↔ P a ∧ (handle a.type).Each P ∧ ∀ entry ∈ a.entries, (value entry.2).Each P := by
  constructor
  · intro h
    exact ⟨h a .refl, h.part (.typeOf a), fun _ hentry => h.part (.entry hentry)⟩
  · rintro ⟨ha, htype, hentries⟩ b hb
    rcases hb.cases_tail with heq | ⟨s, hinside, hpart⟩
    · cases heq
      exact ha
    · cases hpart with
      | typeOf => exact htype b hinside
      | entry hentry => exact hentries _ hentry b hinside

theorem each_literal (l : Literal) : (value (.literal l)).Each P :=
  each_of_no_parts (fun _ => nofun) fun _ => nofun

theorem each_classLiteral {t : ResolvedType Class} :
    (value (.classLiteral t)).Each P ↔ (type t).Each P :=
  each_of_single (fun _ => nofun) (.literalType t) (by rintro _ ⟨⟩; rfl)

theorem each_enumConstant {c : Class} {name : String} {i : Nat} :
    (value (.enumConstant c name i)).Each P ↔ (handle c).Each P :=
  each_of_single (fun _ => nofun) (.enumType c name i) (by rintro _ ⟨⟩; rfl)

theorem each_nested {a : Live.Annotation Class} :
    (value (.nested a)).Each P ↔ (live a).Each P :=
  each_of_single (fun _ => nofun) (.nested a) (by rintro _ ⟨⟩; rfl)

theorem each_array {vs : List (Live.Value Class)} :
    (value (.array vs)).Each P ↔ ∀ v ∈ vs, (value v).Each P := by
  refine Iff.trans (each_iff_parts fun _ => nofun) ?_
  constructor
  · intro h v hv
    exact h _ (.element hv)
  · intro h s hpart
    cases hpart with
    | element hv => exact h _ hv

/-! ### classes -/

theorem each_handle {c : Class} :
    (handle c).Each P ↔ ∀ e ∈ c.elements, ∀ v, e.default? = some v → (value v).Each P := by
  refine Iff.trans (each_iff_parts fun _ => nofun) ?_
  constructor
  · intro h e he v hv
    exact h _ (.byDefault he hv)
  · intro h s hpart
    cases hpart with
    | byDefault he hv => exact h _ he _ hv

/-- A class that declares no elements holds no annotations. -/
theorem each_of_no_elements {c : Class} (h : c.elements = []) : (handle c).Each P := by
  rw [each_handle]
  intro e he
  rw [h] at he
  cases he

/-! ### types -/

theorem each_primitive (t : BaseType) : (type (.primitive t)).Each P :=
  each_of_no_parts (fun _ => nofun) fun _ => nofun

theorem each_void : (type .void).Each P :=
  each_of_no_parts (fun _ => nofun) fun _ => nofun

theorem each_classType {c : Class} : (type (.classType c)).Each P ↔ (handle c).Each P :=
  each_of_single (fun _ => nofun) (.target c) (by rintro _ ⟨⟩; rfl)

theorem each_arrayType {t : ResolvedType Class} : (type (.array t)).Each P ↔ (type t).Each P :=
  each_of_single (fun _ => nofun) (.component t) (by rintro _ ⟨⟩; rfl)

theorem each_parameterized {c : Class} {ts : List (ResolvedType Class)}
    {owner : Option (ResolvedType Class)} :
    (type (.parameterized c ts owner)).Each P ↔
      (handle c).Each P ∧ (∀ t ∈ ts, (type t).Each P) ∧ ∀ t, owner = some t → (type t).Each P := by
  constructor
  · intro h
    refine ⟨h.part (.raw c ts owner), fun t ht => h.part (.argument ht), ?_⟩
    rintro t rfl
    exact h.part (.owner c ts t)
  · rintro ⟨hraw, harguments, howner⟩
    refine Iff.mpr (each_iff_parts fun _ => nofun) ?_
    intro s hpart
    cases hpart with
    | raw => exact hraw
    | argument ht => exact harguments _ ht
    | owner _ _ t => exact howner t rfl

theorem each_typeVariable {name : String} {c : Class} :
    (type (.typeVariable name c)).Each P ↔ (handle c).Each P :=
  each_of_single (fun _ => nofun) (.declaring name c) (by rintro _ ⟨⟩; rfl)

theorem each_wildcard {upper lower : List (ResolvedType Class)} :
    (type (.wildcard upper lower)).Each P ↔
      (∀ t ∈ upper, (type t).Each P) ∧ ∀ t ∈ lower, (type t).Each P := by
  constructor
  · intro h
    exact ⟨fun t ht => h.part (.upperBound ht), fun t ht => h.part (.lowerBound ht)⟩
  · rintro ⟨hupper, hlower⟩
    refine Iff.mpr (each_iff_parts fun _ => nofun) ?_
    intro s hpart
    cases hpart with
    | upperBound ht => exact hupper _ ht
    | lowerBound ht => exact hlower _ ht

/-! ### deferred trees -/

theorem each_resolved {a : Live.Annotation Class} :
    (node (.resolved a)).Each P ↔ (live a).Each P :=
  each_of_single (fun _ => nofun) (.resolved a) (by rintro _ ⟨⟩; rfl)

theorem each_descriptor {signature : String} {entries : List (String × Deferred.Value)} :
    (node (.descriptor signature entries)).Each P ↔ ∀ entry ∈ entries, (deferred entry.2).Each P := by
  refine Iff.trans (each_iff_parts fun _ => nofun) ?_
  constructor
  · intro h entry hentry
    exact h _ (.given hentry)
  · intro h s hpart
    cases hpart with
    | given hentry => exact h _ hentry

theorem each_nestedNode {n : Deferred.Node} : (deferred (.nested n)).Each P ↔ (node n).Each P :=
  each_of_single (fun _ => nofun) (.nestedNode n) (by rintro _ ⟨⟩; rfl)

theorem each_deferredArray {vs : List Deferred.Value} :
    (deferred (.array vs)).Each P ↔ ∀ v ∈ vs, (deferred v).Each P := by
  refine Iff.trans (each_iff_parts fun _ => nofun) ?_
  constructor
  · intro h v hv
    exact h _ (.deferredElement hv)
  · intro h s hpart
    cases hpart with
    | deferredElement hv => exact h _ hv

end Thing

end ClassMetadata
