import ClassMetadata.Proofs.Live.Construction
import ClassMetadata.Proofs.Live.Equality

/-!
# Named values in another order

The named values that an annotation is built from may come in any order, and each of them may be exchanged
for one that is the same.  Which value is refused first depends on the order; whether one is refused does
not, nor does the annotation.

* `Entries.Correspond R es fs`: a name has values in both that are `R`, or in neither;
* `Agree R x y`: two outcomes are failures both, or results that are `R`;
* `Class.agree_fill`, by induction on the declarations: **what is filled corresponds as long as what is
  supplied does**; `Class.agree_construct`: **so do the annotations**.
-/

namespace ClassMetadata

/-! ### entries by name -/

namespace Entries

variable {α β : Type} {R : α → β → Prop}

/-- Each name has values on both sides that are `R`, or on none. -/
def Correspond (R : α → β → Prop) (es : List (String × α)) (fs : List (String × β)) : Prop :=
  ∀ name, Option.Rel R (es.lookup name) (fs.lookup name)

namespace Correspond

variable {es : List (String × α)} {fs : List (String × β)}

theorem nil : Correspond R [] [] := fun _ => .none

/-- What is found on the left is found on the right. -/
theorem of_lookup (h : Correspond R es fs) {name : String} {v : α} (hv : es.lookup name = some v) :
    ∃ w, fs.lookup name = some w ∧ R v w := by
  have hname := h name
  rw [hv] at hname
  cases hfs : fs.lookup name with
  | none =>
    rw [hfs] at hname
    cases hname
  | some w =>
    rw [hfs] at hname
    cases hname with
    | some hvw => exact ⟨w, rfl, hvw⟩

theorem flip (h : Correspond R es fs) : Correspond (fun w v => R v w) fs es := by
  intro name
  have hname := h name
  generalize es.lookup name = x at hname
  generalize fs.lookup name = y at hname
  cases hname with
  | some hvw => exact .some hvw
  | none => exact .none

theorem mem_names_iff (h : Correspond R es fs) {name : String} : name ∈ names es ↔ name ∈ names fs := by
  rw [← exists_lookup_iff, ← exists_lookup_iff]
  constructor
  · rintro ⟨v, hv⟩
    obtain ⟨w, hw, -⟩ := h.of_lookup hv
    exact ⟨w, hw⟩
  · rintro ⟨w, hw⟩
    obtain ⟨v, hv, -⟩ := h.flip.of_lookup hw
    exact ⟨v, hv⟩

theorem of_names (hnames : ∀ name, name ∈ names es ↔ name ∈ names fs)
    (h : ∀ name v w, es.lookup name = some v → fs.lookup name = some w → R v w) : Correspond R es fs := by
  intro name
  have hfound := hnames name
  rw [← exists_lookup_iff, ← exists_lookup_iff] at hfound
  have hrelated := h name
  generalize es.lookup name = x at hfound hrelated ⊢
  generalize fs.lookup name = y at hfound hrelated ⊢
  cases x with
  | none =>
    cases y with
    | none => exact .none
    | some w =>
      obtain ⟨v, hv⟩ := hfound.mpr ⟨w, rfl⟩
      cases hv
  | some v =>
    obtain ⟨w, rfl⟩ := hfound.mp ⟨v, rfl⟩
    exact .some (hrelated v w rfl rfl)

/-- Entries that are related place by place. -/
theorem of_forall₂ (h : List.Forall₂ (fun e f => e.1 = f.1 ∧ R e.2 f.2) es fs) : Correspond R es fs := by
  intro n
  induction h with
  | nil => exact .none
  | @cons e f es fs hef _ ih =>
    obtain ⟨hname, hvalue⟩ := hef
    rw [List.lookup_cons, List.lookup_cons, hname]
    cases n == f.1 with
    | true => exact .some hvalue
    | false => exact ih

theorem erase (h : Correspond R es fs) (name : String) :
    Correspond R (Entries.erase name es) (Entries.erase name fs) := by
  intro n
  rw [lookup_erase, lookup_erase]
  by_cases hn : n = name
  · rw [if_pos hn, if_pos hn]
    exact .none
  · rw [if_neg hn, if_neg hn]
    exact h n

theorem insert (h : Correspond R es fs) (name : String) {v : α} {w : β} (hvw : R v w) :
    Correspond R (Entries.insert name v es) (Entries.insert name w fs) := by
  intro n
  rw [lookup_insert, lookup_insert]
  by_cases hn : n = name
  · rw [if_pos hn, if_pos hn]
    exact .some hvw
  · rw [if_neg hn, if_neg hn]
    exact h n

end Correspond

end Entries

/-! ### two outcomes -/

/-- Failures both, whatever they tell, or results that are `R`. -/
inductive Agree {ε α β : Type} (R : α → β → Prop) : Except ε α → Except ε β → Prop
  | error (e e' : ε) : Agree R (.error e) (.error e')
  | ok {a : α} {b : β} : R a b → Agree R (.ok a) (.ok b)

namespace Agree

variable {ε α β γ δ : Type} {R : α → β → Prop} {S : γ → δ → Prop}

theorem iff {x : Except ε α} {y : Except ε β} :
    Agree R x y ↔
      ((∃ a, x = .ok a) ↔ ∃ b, y = .ok b) ∧ ∀ a b, x = .ok a → y = .ok b → R a b := by
  constructor
  · rintro (⟨e, e'⟩ | hab)
    · simp
    · simpa using hab
  · rintro ⟨hsuccess, hrelated⟩
    cases x with
    | error e =>
      cases y with
      | error e' => exact .error e e'
      | ok b =>
        obtain ⟨a, ha⟩ := hsuccess.mpr ⟨b, rfl⟩
        cases ha
    | ok a =>
      obtain ⟨b, rfl⟩ := hsuccess.mp ⟨a, rfl⟩
      exact .ok (hrelated a b rfl rfl)

theorem bind {x : Except ε α} {y : Except ε β} {f : α → Except ε γ} {g : β → Except ε δ}
    (h : Agree R x y) (hfg : ∀ a b, R a b → Agree S (f a) (g b)) : Agree S (x >>= f) (y >>= g) := by
  cases h with
  | error e e' => exact .error e e'
  | ok hab => exact hfg _ _ hab

/-- After the same first step. -/
theorem after (x : Except ε α) {f : α → Except ε γ} {g : α → Except ε δ}
    (h : ∀ a, x = .ok a → Agree S (f a) (g a)) : Agree S (x >>= f) (x >>= g) := by
  cases x with
  | error e => exact .error e e
  | ok a => exact h a rfl

/-- An outcome agrees with itself if its result is related to itself. -/
theorem self {R : α → α → Prop} {x : Except ε α} (h : ∀ a, x = .ok a → R a a) : Agree R x x := by
  cases x with
  | error e => exact .error e e
  | ok a => exact .ok (h a rfl)

theorem mapError {ε' : Type} {x : Except ε α} {y : Except ε β} (h : Agree R x y) (f : ε → ε') :
    Agree R (x.mapError f) (y.mapError f) := by
  cases h with
  | error e e' => exact .error (f e) (f e')
  | ok hab => exact .ok hab

end Agree

/-! ### construction -/

namespace Live

/-- Named values that are the same, in any order. -/
abbrev SameNamed (es fs : List (String × Value Class)) : Prop :=
  Entries.Correspond (fun v w => v.same w = true) es fs

/-- Two maps with one order of their names and with values that are the same. -/
structure SameOrdered (es fs : List (String × Value Class)) : Prop where
  distinct : (Entries.names es).Nodup
  names : Entries.names es = Entries.names fs
  values : SameNamed es fs

theorem SameOrdered.nil : SameOrdered [] [] := ⟨List.nodup_nil, rfl, .nil⟩

theorem SameOrdered.insert {es fs : List (String × Value Class)} (h : SameOrdered es fs) (name : String)
    {v w : Value Class} (hvw : v.same w = true) :
    SameOrdered (Entries.insert name v es) (Entries.insert name w fs) where
  distinct := Entries.nodup_names_insert h.distinct
  names := by rw [Entries.names_insert, Entries.names_insert, h.names]
  values := h.values.insert name hvw

theorem SameOrdered.same {c : Class} {es fs : List (String × Value Class)} (h : SameOrdered es fs) :
    Annotation.same ⟨c, es⟩ ⟨c, fs⟩ = true := by
  have hlength : es.length = fs.length := by
    have hnames := congrArg List.length h.names
    rwa [Entries.names, Entries.names, List.length_map, List.length_map] at hnames
  refine Annotation.same_iff.mpr ⟨BEq.rfl, hlength, ?_⟩
  intro entry hentry
  exact h.values.of_lookup (Entries.lookup_of_mem h.distinct hentry)

end Live

namespace Class

open Live (SameNamed SameOrdered)

/-- The value for an element: what is supplied for it, else its default. -/
theorem rel_or_default {supplied supplied' : List (String × Live.Value Class)} {e : Element Class}
    (hdefault : ∀ v, e.default? = some v → v.same v = true) (h : SameNamed supplied supplied') :
    Option.Rel (fun v w : Live.Value Class => v.same w = true)
      ((supplied.lookup e.name).or e.default?) ((supplied'.lookup e.name).or e.default?) := by
  have hname := h e.name
  generalize supplied.lookup e.name = x at hname
  generalize supplied'.lookup e.name = y at hname
  cases hname with
  | some hvw => exact .some hvw
  | none =>
    rw [Option.none_or]
    cases hd : e.default? with
    | none => exact .none
    | some v => exact .some (hdefault v hd)

/-- **The same supplied values fill the elements in the same way**, whatever their order was: the entries
come in the order of the declarations. -/
theorem agree_fill {type : String} {elements : List (Element Class)}
    (hdefaults : ∀ e ∈ elements, ∀ v, e.default? = some v → v.same v = true)
    {supplied supplied' done done' : List (String × Live.Value Class)}
    (hsupplied : SameNamed supplied supplied') (hdone : SameOrdered done done') :
    Agree SameOrdered (fill type elements supplied done) (fill type elements supplied' done') := by
  induction elements generalizing supplied supplied' done done' with
  | nil => exact .ok hdone
  | cons e rest ih =>
    obtain ⟨hdefault, hrest⟩ := List.forall_mem_cons.mp hdefaults
    have hvalue := rel_or_default hdefault hsupplied
    rw [fill, fill]
    generalize (supplied.lookup e.name).or e.default? = x at hvalue ⊢
    generalize (supplied'.lookup e.name).or e.default? = y at hvalue ⊢
    cases hvalue with
    | none => exact .error _ _
    | @some v w hvw =>
      dsimp only
      rw [← Live.Value.conforms_congr hvw]
      by_cases hconforms : v.conforms e.type
      · rw [if_pos hconforms, if_pos hconforms]
        exact ih hrest (hsupplied.erase e.name) (hdone.insert e.name hvw)
      · rw [if_neg hconforms, if_neg hconforms]
        exact .error _ _

/-- Whether there is a name that the class does not know, whichever comes first. -/
theorem find_unknown_eq_none_iff {c : Class} {values : List (String × Live.Value Class)} :
    (values.find? fun entry => (c.element? entry.1).isNone) = none ↔
      ∀ name ∈ Entries.names values, c.element? name ≠ none := by
  rw [List.find?_eq_none, Entries.names, List.forall_mem_map]
  simp only [Option.isNone_iff_eq_none, ne_eq]

/-- **The same named values make the same annotation, or none.** -/
theorem agree_construct {c : Class} (hmaps : (Thing.handle c).Each Live.Annotation.Distinct)
    {values values' : List (String × Live.Value Class)} (h : SameNamed values values') :
    Agree (fun a b => a.same b = true) (c.construct values) (c.construct values') := by
  unfold construct
  by_cases hkind : c.isAnnotation
  · rw [hkind]
    have hunknown : (values.find? fun entry => (c.element? entry.1).isNone) = none ↔
        (values'.find? fun entry => (c.element? entry.1).isNone) = none := by
      simp only [find_unknown_eq_none_iff, h.mem_names_iff]
    have hdefaults : ∀ e ∈ c.elements, ∀ v, e.default? = some v → v.same v = true := by
      intro e he v hv
      exact v.same_self (Thing.each_handle.mp hmaps e he v hv)
    have hfilled : Agree SameOrdered (fill c.name c.elements values []) (fill c.name c.elements values' []) :=
      agree_fill hdefaults h .nil
    cases hfind : values.find? fun entry => (c.element? entry.1).isNone with
    | some entry =>
      have hrefused : (values'.find? fun entry => (c.element? entry.1).isNone) ≠ none := by
        rw [Ne, ← hunknown, hfind]
        exact Option.some_ne_none entry
      obtain ⟨entry', hfind'⟩ := Option.ne_none_iff_exists'.mp hrefused
      rw [hfind']
      exact .error _ _
    | none =>
      rw [hunknown.mp hfind]
      exact hfilled.bind fun es fs hsame => .ok hsame.same
  · rw [Bool.not_eq_true] at hkind
    rw [hkind]
    exact .error _ _

end Class

end ClassMetadata
