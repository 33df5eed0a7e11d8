import ClassMetadata.Proofs.Live.Equality

/-!
# Live values fall into classes

Being the same is an equivalence, and what type checking asks of a value is the same for all values of a
class.  Types are compared by the names of their classes, so their equality is equality of the types with
the names in place of the classes.  For annotations the comparison goes one way, from the entries of the
first to those of the second; that it could as well go the other way is because the two have as many
entries.

* `ResolvedType.named`, `ResolvedType.same_iff`: **types are the same if they are equal by name**;
* `Value.same_symm`, `Value.same_trans`: the two halves for values, by recursion on the first one;
* `Value.describe_congr`: values that are the same are described by one text;
* `same_equivalence`: **sameness is an equivalence that neither conformance nor a description sees
  through**.
-/

namespace ClassMetadata

/-! ### resolved types -/

mutual

/-- A type with the names of its classes in their place. -/
def ResolvedType.named : ResolvedType Class → ResolvedType String
  | .primitive t => .primitive t
  | .void => .void
  | .classType c => .classType c.name
  | .array component => .array component.named
  | .parameterized raw arguments owner =>
    .parameterized raw.name (ResolvedType.allNamed arguments) (ResolvedType.ownerNamed owner)
  | .typeVariable name c => .typeVariable name c.name
  | .wildcard upper lower => .wildcard (ResolvedType.allNamed upper) (ResolvedType.allNamed lower)

def ResolvedType.allNamed : List (ResolvedType Class) → List (ResolvedType String)
  | [] => []
  | t :: ts => t.named :: ResolvedType.allNamed ts

def ResolvedType.ownerNamed : Option (ResolvedType Class) → Option (ResolvedType String)
  | none => none
  | some t => some t.named

end

mutual

/-- **Types are the same if and only if they are equal by name.** -/
theorem ResolvedType.same_iff : ∀ s t : ResolvedType Class, s.same t = true ↔ s.named = t.named
  | .primitive _, t => by cases t <;> simp [same, named]
  | .void, t => by cases t <;> simp [same, named]
  | .classType _, t => by cases t <;> simp [same, named, Class.beq_iff]
  | .array s, t => by cases t <;> simp [same, named, s.same_iff]
  | .parameterized _ ss owner, t => by
    cases t <;> simp [same, named, Class.beq_iff, sameAll_iff ss, sameOwner_iff owner, and_assoc]
  | .typeVariable _ _, t => by cases t <;> simp [same, named, Class.beq_iff]
  | .wildcard us ls, t => by cases t <;> simp [same, named, sameAll_iff us, sameAll_iff ls]

theorem ResolvedType.sameAll_iff : ∀ ss ts : List (ResolvedType Class),
    ResolvedType.sameAll ss ts = true ↔ ResolvedType.allNamed ss = ResolvedType.allNamed ts
  | [], ts => by cases ts <;> simp [sameAll, allNamed]
  | s :: ss, ts => by cases ts <;> simp [sameAll, allNamed, s.same_iff, sameAll_iff ss]

theorem ResolvedType.sameOwner_iff : ∀ s t : Option (ResolvedType Class),
    ResolvedType.sameOwner s t = true ↔ ResolvedType.ownerNamed s = ResolvedType.ownerNamed t
  | none, t => by cases t <;> simp [sameOwner, ownerNamed]
  | some s, t => by cases t <;> simp [sameOwner, ownerNamed, s.same_iff]

end

theorem ResolvedType.same_symm {s t : ResolvedType Class} (h : s.same t = true) : t.same s = true := by
  rw [same_iff] at h ⊢
  exact h.symm

theorem ResolvedType.same_trans {s t u : ResolvedType Class} (h : s.same t = true) (h' : t.same u = true) :
    s.same u = true := by
  rw [same_iff] at h h' ⊢
  exact h.trans h'

theorem Class.beq_symm {c d : Class} (h : (c == d) = true) : (d == c) = true :=
  beq_iff.mpr (beq_iff.mp h).symm

theorem Class.beq_trans {c d e : Class} (h : (c == d) = true) (h' : (d == e) = true) : (c == e) = true :=
  beq_iff.mpr ((beq_iff.mp h).trans (beq_iff.mp h'))

namespace Live

/-- The entries of one annotation are found in another, with values that are the same. -/
abbrev SameIn (es fs : List (String × Value Class)) : Prop :=
  Entries.FoundIn (fun v w : Value Class => v.same w = true) es fs

/-! ### the other way -/

mutual

theorem Value.same_symm : ∀ {v w : Value Class}, (Thing.value v).Each Annotation.Distinct →
    v.same w = true → w.same v = true
  | .literal _, _, _, h => by
    obtain rfl := Value.literal_same_iff.mp h
    exact Value.literal_same_iff.mpr rfl
  | .classLiteral t, _, _, h => by
    obtain ⟨u, rfl, htypes⟩ := Value.classLiteral_same_iff.mp h
    exact Value.classLiteral_same_iff.mpr ⟨t, rfl, ResolvedType.same_symm htypes⟩
  | .enumConstant c _ _, _, _, h => by
    obtain ⟨d, rfl, hclass⟩ := Value.enumConstant_same_iff.mp h
    exact Value.enumConstant_same_iff.mpr ⟨c, rfl, Class.beq_symm hclass⟩
  | .nested a, _, hmaps, h => by
    obtain ⟨b, rfl, hsame⟩ := Value.nested_same_iff.mp h
    exact Value.nested_same_iff.mpr ⟨a, rfl, Annotation.same_symm (Thing.each_nested.mp hmaps) hsame⟩
  | .array vs, _, hmaps, h => by
    obtain ⟨ws, rfl, hsame⟩ := Value.array_same_iff.mp h
    exact Value.array_same_iff.mpr ⟨vs, rfl, Value.sameAll_symm (Thing.each_array.mp hmaps) hsame⟩

theorem Value.sameAll_symm : ∀ {vs ws : List (Value Class)},
    (∀ v ∈ vs, (Thing.value v).Each Annotation.Distinct) → Value.sameAll vs ws = true →
    Value.sameAll ws vs = true
  | [], _, _, h => by
    obtain rfl := Value.nil_sameAll_iff.mp h
    exact Value.nil_sameAll_iff.mpr rfl
  | v :: vs, _, hmaps, h => by
    obtain ⟨hv, hvs⟩ := List.forall_mem_cons.mp hmaps
    obtain ⟨w, rest, rfl, hhead, htail⟩ := Value.cons_sameAll_iff.mp h
    exact Value.cons_sameAll_iff.mpr ⟨v, vs, rfl, Value.same_symm hv hhead, Value.sameAll_symm hvs htail⟩

theorem Annotation.same_symm : ∀ {a b : Annotation Class}, (Thing.live a).Each Annotation.Distinct →
    a.same b = true → b.same a = true
  | ⟨c, es⟩, b, hmaps, h => by
    obtain ⟨hdistinct, -, hentries⟩ := Thing.each_live.mp hmaps
    obtain ⟨htype, hlength, hfound⟩ := Annotation.same_iff.mp h
    have hthere : SameIn es b.entries := hfound
    have hback : SameIn b.entries es :=
      hthere.symm hdistinct hlength (Value.entries_same_symm es hentries)
    exact Annotation.same_iff.mpr ⟨Class.beq_symm htype, hlength.symm, hback⟩

theorem Value.entries_same_symm : ∀ es : List (String × Value Class),
    (∀ entry ∈ es, (Thing.value entry.2).Each Annotation.Distinct) →
    ∀ entry ∈ es, ∀ w, entry.2.same w = true → w.same entry.2 = true
  | [], _ => nofun
  | (_, v) :: es, hmaps => by
    obtain ⟨hv, hes⟩ := List.forall_mem_cons.mp hmaps
    exact List.forall_mem_cons.mpr ⟨fun _ => Value.same_symm hv, Value.entries_same_symm es hes⟩

end

/-! ### one after the other -/

mutual

theorem Value.same_trans : ∀ {u v w : Value Class}, u.same v = true → v.same w = true → u.same w = true
  | .literal _, _, _, h, h' => by
    obtain rfl := Value.literal_same_iff.mp h
    exact h'
  | .classLiteral _, _, _, h, h' => by
    obtain ⟨t, rfl, htypes⟩ := Value.classLiteral_same_iff.mp h
    obtain ⟨t', rfl, htypes'⟩ := Value.classLiteral_same_iff.mp h'
    exact Value.classLiteral_same_iff.mpr ⟨t', rfl, ResolvedType.same_trans htypes htypes'⟩
  | .enumConstant _ _ _, _, _, h, h' => by
    obtain ⟨d, rfl, hclass⟩ := Value.enumConstant_same_iff.mp h
    obtain ⟨e, rfl, hclass'⟩ := Value.enumConstant_same_iff.mp h'
    exact Value.enumConstant_same_iff.mpr ⟨e, rfl, Class.beq_trans hclass hclass'⟩
  | .nested _, _, _, h, h' => by
    obtain ⟨b, rfl, hsame⟩ := Value.nested_same_iff.mp h
    obtain ⟨b', rfl, hsame'⟩ := Value.nested_same_iff.mp h'
    exact Value.nested_same_iff.mpr ⟨b', rfl, Annotation.same_trans hsame hsame'⟩
  | .array _, _, _, h, h' => by
    obtain ⟨vs, rfl, hsame⟩ := Value.array_same_iff.mp h
    obtain ⟨ws, rfl, hsame'⟩ := Value.array_same_iff.mp h'
    exact Value.array_same_iff.mpr ⟨ws, rfl, Value.sameAll_trans hsame hsame'⟩

theorem Value.sameAll_trans : ∀ {us vs ws : List (Value Class)}, Value.sameAll us vs = true →
    Value.sameAll vs ws = true → Value.sameAll us ws = true
  | [], _, _, h, h' => by
    obtain rfl := Value.nil_sameAll_iff.mp h
    exact h'
  | _ :: _, _, _, h, h' => by
    obtain ⟨v, vs, rfl, hhead, htail⟩ := Value.cons_sameAll_iff.mp h
    obtain ⟨w, ws, rfl, hhead', htail'⟩ := Value.cons_sameAll_iff.mp h'
    exact Value.cons_sameAll_iff.mpr
      ⟨w, ws, rfl, Value.same_trans hhead hhead', Value.sameAll_trans htail htail'⟩

theorem Annotation.same_trans : ∀ {a b c : Annotation Class}, a.same b = true → b.same c = true →
    a.same c = true
  | ⟨_, es⟩, b, c, h, h' => by
    obtain ⟨htype, hlength, hfound⟩ := Annotation.same_iff.mp h
    obtain ⟨htype', hlength', hfound'⟩ := Annotation.same_iff.mp h'
    have hfirst : SameIn es b.entries := hfound
    have hsecond : SameIn b.entries c.entries := hfound'
    have hthrough : SameIn es c.entries := hfirst.trans hsecond (Value.entries_same_trans es)
    exact Annotation.same_iff.mpr ⟨Class.beq_trans htype htype', hlength.trans hlength', hthrough⟩

theorem Value.entries_same_trans : ∀ es : List (String × Value Class),
    ∀ entry ∈ es, ∀ v w, entry.2.same v = true → v.same w = true → entry.2.same w = true
  | [] => nofun
  | (_, _) :: es => List.forall_mem_cons.mpr ⟨fun _ _ => Value.same_trans, Value.entries_same_trans es⟩

end

/-! ### what is the same for values that are -/

/-- An array is described by its first element, so the recursion goes along first elements only. -/
theorem Value.describe_congr : ∀ {v w : Value Class}, v.same w = true → v.describe = w.describe
  | .literal _, _, h => by
    obtain rfl := Value.literal_same_iff.mp h
    rfl
  | .classLiteral _, _, h => by
    obtain ⟨_, rfl, -⟩ := Value.classLiteral_same_iff.mp h
    rfl
  | .enumConstant _ _ _, _, h => by
    obtain ⟨d, rfl, hclass⟩ := Value.enumConstant_same_iff.mp h
    exact Class.beq_iff.mp hclass
  | .nested _, _, h => by
    obtain ⟨b, rfl, hsame⟩ := Value.nested_same_iff.mp h
    obtain ⟨htype, -, -⟩ := Annotation.same_iff.mp hsame
    exact Class.beq_iff.mp htype
  | .array [], _, h => by
    obtain ⟨ws, rfl, hsame⟩ := Value.array_same_iff.mp h
    obtain rfl := Value.nil_sameAll_iff.mp hsame
    rfl
  | .array (v :: _), _, h => by
    obtain ⟨ws, rfl, hsame⟩ := Value.array_same_iff.mp h
    obtain ⟨w, rest, rfl, hhead, -⟩ := Value.cons_sameAll_iff.mp hsame
    show v.describe ++ "[]" = w.describe ++ "[]"
    rw [Value.describe_congr hhead]

/-- A value all of whose annotations are maps.  So are all values that a program can have
(`World.each_distinct`). -/
abbrev MapValue : Type := { v : Value Class // (Thing.value v).Each Annotation.Distinct }

/-- **Sameness is an equivalence, and values that are the same have the same types and one description.** -/
theorem same_equivalence :
    (Equivalence fun v w : MapValue => v.1.same w.1 = true) ∧
      ∀ v w : Value Class, v.same w = true →
        (∀ t : ElementType, v.conforms t = true ↔ w.conforms t = true) ∧ v.describe = w.describe := by
  refine ⟨⟨?_, ?_, ?_⟩, ?_⟩
  · intro v
    exact v.1.same_self v.2
  · intro v w h
    exact Value.same_symm v.2 h
  · intro u v w h h'
    exact Value.same_trans h h'
  · intro v w h
    refine ⟨fun t => ?_, Value.describe_congr h⟩
    rw [Value.conforms_congr h t]

/-- Two annotations of one type, of which the second has a newer handle and its entries in the other order;
one of the entries is no number. -/
theorem same_in_two_orders :
    let old := Class.named .annotationInterface "Scale"
    let new := old.declare "by" (.literal (.base .float)) none
    let scale : Value Class :=
      .nested ⟨old, [("by", .literal (.float 0x7FC00000)), ("at", .literal (.int 1))]⟩
    let scale' : Value Class :=
      .nested ⟨new, [("at", .literal (.int 1)), ("by", .literal (.float 0x7FC00000))]⟩
    ∃ v w : MapValue, v.1 = scale ∧ w.1 = scale' ∧ v.1.same w.1 = true ∧ w.1.same v.1 = true ∧
      v.1.same v.1 = true ∧ scale.conforms (.nested "Scale") = true ∧
      scale'.conforms (.nested "Scale") = true ∧ scale.describe = scale'.describe := by
  intro old new scale scale'
  have hold : (Thing.handle old).Each Annotation.Distinct := Thing.each_of_no_elements rfl
  have hnew : (Thing.handle new).Each Annotation.Distinct :=
    Thing.each_handle.mpr (List.forall_mem_singleton.mpr nofun)
  have hscale : (Thing.value scale).Each Annotation.Distinct := by
    refine Thing.each_nested.mpr (Thing.each_live.mpr ⟨?_, hold, ?_⟩)
    · unfold Annotation.Distinct
      decide
    · exact List.forall_mem_cons.mpr
        ⟨Thing.each_literal _, List.forall_mem_singleton.mpr (Thing.each_literal _)⟩
  have hscale' : (Thing.value scale').Each Annotation.Distinct := by
    refine Thing.each_nested.mpr (Thing.each_live.mpr ⟨?_, hnew, ?_⟩)
    · unfold Annotation.Distinct
      decide
    · exact List.forall_mem_cons.mpr
        ⟨Thing.each_literal _, List.forall_mem_singleton.mpr (Thing.each_literal _)⟩
  have hsame : scale.same scale' = true := by decide +kernel
  have hconforms : scale.conforms (.nested "Scale") = true := rfl
  obtain ⟨hequivalence, hseen⟩ := same_equivalence
  obtain ⟨htypes, hdescription⟩ := hseen scale scale' hsame
  exact ⟨⟨scale, hscale⟩, ⟨scale', hscale'⟩, rfl, rfl, hsame, hequivalence.symm hsame, hequivalence.refl _,
    hconforms, (htypes _).mp hconforms, hdescription⟩

end Live

end ClassMetadata
