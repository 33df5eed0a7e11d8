import ClassMetadata.Live.Construction
import ClassMetadata.Proofs.Entries
import ClassMetadata.Proofs.Live.Parts

/-!
# Equality of live values

Live values are compared by what a program can see of them: literals bit by bit, classes by name, the entries
of an annotation by name whatever their order.

* `Value.nested_same_iff`, `Annotation.same_iff`, …: **one equivalence for every form of a value**;
* `Live.Annotation.Distinct`: no name has two entries, as in every map; `Live.Value.same_self`: **then a value
  is the same as itself**, numbers that are none included;
* `Live.Value.conforms_congr`: **values that are the same have the same types**.
-/

namespace ClassMetadata

instance : ReflBEq Class := ⟨Class.beq_iff.mpr rfl⟩

/-! ### resolved types -/

mutual

/-- A resolved type is the same as itself. -/
theorem ResolvedType.same_self : ∀ t : ResolvedType Class, t.same t = true
  | .primitive _ => by simp [ResolvedType.same]
  | .void => rfl
  | .classType _ => by simp [ResolvedType.same]
  | .array component => component.same_self
  | .parameterized _ arguments owner => by
    simp [ResolvedType.same, ResolvedType.sameAll_self arguments, ResolvedType.sameOwner_self owner]
  | .typeVariable _ _ => by simp [ResolvedType.same]
  | .wildcard upper lower => by
    simp [ResolvedType.same, ResolvedType.sameAll_self upper, ResolvedType.sameAll_self lower]

theorem ResolvedType.sameAll_self : ∀ ts : List (ResolvedType Class), ResolvedType.sameAll ts ts = true
  | [] => rfl
  | t :: ts => by simp [ResolvedType.sameAll, t.same_self, ResolvedType.sameAll_self ts]

theorem ResolvedType.sameOwner_self : ∀ owner : Option (ResolvedType Class),
    ResolvedType.sameOwner owner owner = true
  | none => rfl
  | some t => t.same_self

end

/-! ### the forms of values -/

namespace Live

section Forms

variable {κ : Type} [BEq κ]

theorem Value.literal_same_iff {l : Literal} {w : Value κ} :
    (Value.literal l).same w = true ↔ w = .literal l := by
  cases w with
  | literal l' =>
    rw [Value.same, beq_iff_eq, Value.literal.injEq]
    exact eq_comm
  | _ => simp [Value.same]

theorem Value.classLiteral_same_iff {t : ResolvedType κ} {w : Value κ} :
    (Value.classLiteral t).same w = true ↔ ∃ u, w = .classLiteral u ∧ t.same u = true := by
  cases w <;> simp [Value.same]

theorem Value.enumConstant_same_iff {c : κ} {name : String} {i : Nat} {w : Value κ} :
    (Value.enumConstant c name i).same w = true ↔
      ∃ d, w = .enumConstant d name i ∧ (c == d) = true := by
  cases w with
  | enumConstant d name' j =>
    rw [Value.same, Bool.and_eq_true, Bool.and_eq_true]
    constructor
    · rintro ⟨⟨hclass, hname⟩, hindex⟩
      obtain rfl : name = name' := beq_iff_eq.mp hname
      obtain rfl : i = j := beq_iff_eq.mp hindex
      exact ⟨d, rfl, hclass⟩
    · rintro ⟨_, ⟨⟩, hclass⟩
      exact ⟨⟨hclass, BEq.rfl⟩, BEq.rfl⟩
  | _ => simp [Value.same]

theorem Value.nested_same_iff {a : Annotation κ} {w : Value κ} :
    (Value.nested a).same w = true ↔ ∃ b, w = .nested b ∧ a.same b = true := by
  cases w <;> simp [Value.same]

theorem Value.array_same_iff {vs : List (Value κ)} {w : Value κ} :
    (Value.array vs).same w = true ↔ ∃ ws, w = .array ws ∧ Value.sameAll vs ws = true := by
  cases w <;> simp [Value.same]

theorem Value.nil_sameAll_iff {ws : List (Value κ)} : Value.sameAll [] ws = true ↔ ws = [] := by
  cases ws <;> simp [Value.sameAll]

theorem Value.cons_sameAll_iff {v : Value κ} {vs ws : List (Value κ)} :
    Value.sameAll (v :: vs) ws = true ↔
      ∃ w rest, ws = w :: rest ∧ v.same w = true ∧ Value.sameAll vs rest = true := by
  cases ws <;> simp [Value.sameAll]

theorem Value.sameIn_iff {es fs : List (String × Value κ)} :
    Value.sameIn fs es = true ↔
      ∀ entry ∈ es, ∃ w, fs.lookup entry.1 = some w ∧ entry.2.same w = true := by
  induction es with
  | nil => simp [Value.sameIn]
  | cons entry es ih =>
    obtain ⟨name, v⟩ := entry
    rw [Value.sameIn, List.forall_mem_cons, Bool.and_eq_true, ih]
    cases fs.lookup name <;> simp

/-- Annotations of one type with as many entries, and the values of the one found in the other. -/
theorem Annotation.same_iff {a b : Annotation κ} :
    a.same b = true ↔ (a.type == b.type) = true ∧ a.entries.length = b.entries.length ∧
      ∀ entry ∈ a.entries, ∃ w, b.entries.lookup entry.1 = some w ∧ entry.2.same w = true := by
  obtain ⟨c, es⟩ := a
  obtain ⟨d, fs⟩ := b
  have hlength : (es.length == fs.length) = true ↔ es.length = fs.length := beq_iff_eq
  unfold Annotation.same
  rw [Bool.and_eq_true, Bool.and_eq_true, Value.sameIn_iff, hlength, and_assoc]

/-- No name has two entries. -/
def Annotation.Distinct (a : Annotation κ) : Prop := (Entries.names a.entries).Nodup

end Forms

/-! ### a value is the same as itself -/

mutual

/-- **A value of maps is the same as itself.** -/
theorem Value.same_self : ∀ v : Value Class, (Thing.value v).Each Annotation.Distinct → v.same v = true
  | .literal _, _ => Value.literal_same_iff.mpr rfl
  | .classLiteral t, _ => Value.classLiteral_same_iff.mpr ⟨t, rfl, t.same_self⟩
  | .enumConstant c _ _, _ => Value.enumConstant_same_iff.mpr ⟨c, rfl, BEq.rfl⟩
  | .nested a, h => Value.nested_same_iff.mpr ⟨a, rfl, a.same_self (Thing.each_nested.mp h)⟩
  | .array vs, h => Value.array_same_iff.mpr ⟨vs, rfl, Value.sameAll_self vs (Thing.each_array.mp h)⟩

theorem Value.sameAll_self : ∀ vs : List (Value Class),
    (∀ v ∈ vs, (Thing.value v).Each Annotation.Distinct) → Value.sameAll vs vs = true
  | [], _ => Value.nil_sameAll_iff.mpr rfl
  | v :: vs, h => by
    obtain ⟨hv, hvs⟩ := List.forall_mem_cons.mp h
    exact Value.cons_sameAll_iff.mpr ⟨v, vs, rfl, v.same_self hv, Value.sameAll_self vs hvs⟩

theorem Annotation.same_self : ∀ a : Annotation Class, (Thing.live a).Each Annotation.Distinct →
    a.same a = true
  | ⟨c, es⟩, h => by
    obtain ⟨hdistinct, -, hentries⟩ := Thing.each_live.mp h
    refine Annotation.same_iff.mpr ⟨BEq.rfl, rfl, fun entry hentry => ?_⟩
    exact ⟨entry.2, Entries.lookup_of_mem hdistinct hentry, Value.entries_same_self es hentries entry hentry⟩

theorem Value.entries_same_self : ∀ es : List (String × Value Class),
    (∀ entry ∈ es, (Thing.value entry.2).Each Annotation.Distinct) →
    ∀ entry ∈ es, entry.2.same entry.2 = true
  | [], _ => nofun
  | (_, v) :: es, h => by
    obtain ⟨hv, hes⟩ := List.forall_mem_cons.mp h
    exact List.forall_mem_cons.mpr ⟨v.same_self hv, Value.entries_same_self es hes⟩

end

/-! ### types of values that are the same -/

mutual

/-- **Values that are the same conform to the same types.** -/
theorem Value.conforms_congr : ∀ {v w : Value Class}, v.same w = true →
    ∀ t : ElementType, v.conforms t = w.conforms t
  | .literal _, _, h, t => by
    obtain rfl := Value.literal_same_iff.mp h
    rfl
  | .classLiteral _, _, h, t => by
    obtain ⟨u, rfl, -⟩ := Value.classLiteral_same_iff.mp h
    cases t <;> rfl
  | .enumConstant _ _ _, _, h, t => by
    obtain ⟨d, rfl, hclass⟩ := Value.enumConstant_same_iff.mp h
    have hname := Class.beq_iff.mp hclass
    cases t <;> simp [Value.conforms, hname]
  | .nested _, _, h, t => by
    obtain ⟨b, rfl, hsame⟩ := Value.nested_same_iff.mp h
    obtain ⟨htype, -⟩ := Annotation.same_iff.mp hsame
    have hname := Class.beq_iff.mp htype
    cases t <;> simp [Value.conforms, hname]
  | .array _, _, h, t => by
    obtain ⟨ws, rfl, hsame⟩ := Value.array_same_iff.mp h
    cases t with
    | array component => exact Value.allConform_congr hsame component
    | _ => rfl

theorem Value.allConform_congr : ∀ {vs ws : List (Value Class)}, Value.sameAll vs ws = true →
    ∀ t : ElementType, Value.allConform vs t = Value.allConform ws t
  | [], _, h, t => by
    obtain rfl := Value.nil_sameAll_iff.mp h
    rfl
  | _ :: _, _, h, t => by
    obtain ⟨w, rest, rfl, hv, hvs⟩ := Value.cons_sameAll_iff.mp h
    rw [Value.allConform, Value.allConform, Value.conforms_congr hv t, Value.allConform_congr hvs t]

end

end Live

end ClassMetadata
