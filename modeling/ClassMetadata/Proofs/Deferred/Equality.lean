import ClassMetadata.Proofs.Live.Equivalence

/-!
# Equality of deferred trees

Trees are compared like live values, with one difference: floating-point numbers are compared as numbers, so
that one that is no number is not even the same as itself.  An annotation inside a tree that is live already
is compared as a live one, bit by bit.  What is left of an equivalence is that the comparison goes both ways
and can be continued, and that a tree is the same as itself if all its numbers are.

* `Literal.sameNumber_comm`, `Literal.sameNumber_trans`, `Literal.sameNumber_self`: the literals;
* `Value.literals`, `Node.literals`: the literals of a tree, those of live annotations left out;
* `Value.OfMaps`, `Node.OfMaps`: trees whose attributes are maps;
* `Value.same_symm`, `Value.same_trans`, `Value.same_self_iff`: by recursion on the first tree;
* `same_partialEquivalence`: **equality of trees is symmetric and transitive, and reflexive for just those
  trees that hold no floating-point literal that is no number**.
-/

namespace ClassMetadata

/-! ### literals as numbers -/

namespace BinaryFormat

variable (f : BinaryFormat)

theorem sameNumber_trans {a b c : Nat} (h : f.sameNumber a b = true) (h' : f.sameNumber b c = true) :
    f.sameNumber a c = true := by
  simp only [sameNumber, Bool.and_eq_true, Bool.or_eq_true, beq_iff_eq] at h h' ⊢
  obtain ⟨⟨ha, -⟩, hab⟩ := h
  obtain ⟨⟨-, hc⟩, hbc⟩ := h'
  refine ⟨⟨ha, hc⟩, ?_⟩
  rcases hab with rfl | ⟨hza, hzb⟩
  · exact hbc
  · rcases hbc with rfl | ⟨-, hzc⟩
    · exact .inr ⟨hza, hzb⟩
    · exact .inr ⟨hza, hzc⟩

end BinaryFormat

namespace Literal

/-- Whether a literal is a floating-point one that is no number. -/
def isNaN : Literal → Bool
  | float bits => BinaryFormat.single.isNaN bits.toNat
  | double bits => BinaryFormat.double.isNaN bits.toNat
  | _ => false

theorem sameNumber_self (l : Literal) : l.sameNumber l = !l.isNaN := by
  cases l with
  | float bits => exact BinaryFormat.single.sameNumber_self bits.toNat
  | double bits => exact BinaryFormat.double.sameNumber_self bits.toNat
  | _ => simp [sameNumber, isNaN]

theorem sameNumber_comm (l m : Literal) : l.sameNumber m = m.sameNumber l := by
  cases l <;> cases m <;> simp only [sameNumber, BinaryFormat.sameNumber_comm, Bool.beq_comm]

theorem sameNumber_trans {l m n : Literal} (h : l.sameNumber m = true) (h' : m.sameNumber n = true) :
    l.sameNumber n = true := by
  cases l with
  | float a =>
    cases m with
    | float b =>
      cases n with
      | float c => exact BinaryFormat.single.sameNumber_trans h h'
      | _ => cases h'
    | _ => cases h
  | double a =>
    cases m with
    | double b =>
      cases n with
      | double c => exact BinaryFormat.double.sameNumber_trans h h'
      | _ => cases h'
    | _ => cases h
  | _ => cases m <;> simp_all [sameNumber]

end Literal

namespace Deferred

/-! ### the forms of trees -/

theorem Value.literal_same_iff {l : Literal} {w : Value} :
    (Value.literal l).same w = true ↔ ∃ m, w = .literal m ∧ l.sameNumber m = true := by
  cases w <;> simp [Value.same]

theorem Value.classLiteral_same_iff {signature : String} {w : Value} :
    (Value.classLiteral signature).same w = true ↔ .classLiteral signature = w := by
  cases w <;> simp [Value.same]

theorem Value.enumConstant_same_iff {signature constant : String} {w : Value} :
    (Value.enumConstant signature constant).same w = true ↔ .enumConstant signature constant = w := by
  cases w <;> simp [Value.same]

theorem Value.nested_same_iff {m : Node} {w : Value} :
    (Value.nested m).same w = true ↔ ∃ n, w = .nested n ∧ m.same n = true := by
  cases w <;> simp [Value.same]

theorem Value.array_same_iff {vs : List Value} {w : Value} :
    (Value.array vs).same w = true ↔ ∃ ws, w = .array ws ∧ Value.sameAll vs ws = true := by
  cases w <;> simp [Value.same]

theorem Value.nil_sameAll_iff {ws : List Value} : Value.sameAll [] ws = true ↔ ws = [] := by
  cases ws <;> simp [Value.sameAll]

theorem Value.cons_sameAll_iff {v : Value} {vs ws : List Value} :
    Value.sameAll (v :: vs) ws = true ↔
      ∃ w rest, ws = w :: rest ∧ v.same w = true ∧ Value.sameAll vs rest = true := by
  cases ws <;> simp [Value.sameAll]

/-- The attributes of one node are found in another, with values that are the same. -/
abbrev SameIn (as bs : List (String × Value)) : Prop :=
  Entries.FoundIn (fun v w : Value => v.same w = true) as bs

theorem Value.sameIn_iff {as bs : List (String × Value)} : Value.sameIn bs as = true ↔ SameIn as bs := by
  induction as with
  | nil => simp [Value.sameIn, Entries.FoundIn]
  | cons entry as ih =>
    obtain ⟨name, v⟩ := entry
    rw [Value.sameIn, SameIn, Entries.FoundIn, List.forall_mem_cons, Bool.and_eq_true, ih]
    cases bs.lookup name <;> simp [Entries.FoundIn]

theorem Node.descriptor_same_iff {signature : String} {as : List (String × Value)} {n : Node} :
    (Node.descriptor signature as).same n = true ↔
      ∃ bs, n = .descriptor signature bs ∧ as.length = bs.length ∧ SameIn as bs := by
  cases n with
  | descriptor signature' bs =>
    rw [Node.same, Bool.and_eq_true, Bool.and_eq_true, Value.sameIn_iff, beq_iff_eq, beq_iff_eq, and_assoc]
    constructor
    · rintro ⟨rfl, hlength, hfound⟩
      exact ⟨bs, rfl, hlength, hfound⟩
    · rintro ⟨_, ⟨⟩, hlength, hfound⟩
      exact ⟨rfl, hlength, hfound⟩
  | resolved b => simp [Node.same]

theorem Node.resolved_same_iff {a : Live.Annotation Class} {n : Node} :
    (Node.resolved a).same n = true ↔ ∃ b, n = .resolved b ∧ a.same b = true := by
  cases n <;> simp [Node.same]

/-! ### trees of maps, and the literals in a tree -/

mutual

/-- No name has two values among the attributes of a node, at any depth, and live annotations are maps as
well. -/
def Value.OfMaps : Value → Prop
  | .literal _ => True
  | .classLiteral _ => True
  | .enumConstant _ _ => True
  | .nested node => node.OfMaps
  | .array vs => Value.AllOfMaps vs

def Value.AllOfMaps : List Value → Prop
  | [] => True
  | v :: vs => v.OfMaps ∧ Value.AllOfMaps vs

def Node.OfMaps : Node → Prop
  | .descriptor _ attributes => (Entries.names attributes).Nodup ∧ Value.EntriesOfMaps attributes
  | .resolved a => (Thing.live a).Each Live.Annotation.Distinct

def Value.EntriesOfMaps : List (String × Value) → Prop
  | [] => True
  | (_, v) :: rest => v.OfMaps ∧ Value.EntriesOfMaps rest

end

mutual

/-- The literals of a tree in order.  Those of an annotation that is live already are not among them. -/
def Value.literals : Value → List Literal
  | .literal l => [l]
  | .classLiteral _ => []
  | .enumConstant _ _ => []
  | .nested node => node.literals
  | .array vs => Value.listLiterals vs

def Value.listLiterals : List Value → List Literal
  | [] => []
  | v :: vs => v.literals ++ Value.listLiterals vs

def Node.literals : Node → List Literal
  | .descriptor _ attributes => Value.entryLiterals attributes
  | .resolved _ => []

def Value.entryLiterals : List (String × Value) → List Literal
  | [] => []
  | (_, v) :: rest => v.literals ++ Value.entryLiterals rest

end

/-- No floating-point literal among some is one that is no number. -/
def AllNumbers (literals : List Literal) : Prop := ∀ l ∈ literals, l.isNaN = false

theorem allNumbers_append {ls ms : List Literal} : AllNumbers (ls ++ ms) ↔ AllNumbers ls ∧ AllNumbers ms :=
  List.forall_mem_append

/-! ### the other way -/

mutual

theorem Value.same_symm : ∀ {v w : Value}, v.OfMaps → v.same w = true → w.same v = true
  | .literal l, _, _, h => by
    obtain ⟨m, rfl, hnumber⟩ := Value.literal_same_iff.mp h
    exact Value.literal_same_iff.mpr ⟨l, rfl, m.sameNumber_comm l ▸ hnumber⟩
  | .classLiteral _, _, _, h => by
    obtain rfl := Value.classLiteral_same_iff.mp h
    exact h
  | .enumConstant _ _, _, _, h => by
    obtain rfl := Value.enumConstant_same_iff.mp h
    exact h
  | .nested m, _, hmaps, h => by
    obtain ⟨n, rfl, hsame⟩ := Value.nested_same_iff.mp h
    exact Value.nested_same_iff.mpr ⟨m, rfl, Node.same_symm hmaps hsame⟩
  | .array vs, _, hmaps, h => by
    obtain ⟨ws, rfl, hsame⟩ := Value.array_same_iff.mp h
    exact Value.array_same_iff.mpr ⟨vs, rfl, Value.sameAll_symm hmaps hsame⟩

theorem Value.sameAll_symm : ∀ {vs ws : List Value}, Value.AllOfMaps vs → Value.sameAll vs ws = true →
    Value.sameAll ws vs = true
  | [], _, _, h => by
    obtain rfl := Value.nil_sameAll_iff.mp h
    exact h
  | v :: vs, _, ⟨hv, hvs⟩, h => by
    obtain ⟨w, rest, rfl, hhead, htail⟩ := Value.cons_sameAll_iff.mp h
    exact Value.cons_sameAll_iff.mpr ⟨v, vs, rfl, Value.same_symm hv hhead, Value.sameAll_symm hvs htail⟩

theorem Node.same_symm : ∀ {m n : Node}, m.OfMaps → m.same n = true → n.same m = true
  | .descriptor _ as, _, ⟨hdistinct, hvalues⟩, h => by
    obtain ⟨bs, rfl, hlength, hfound⟩ := Node.descriptor_same_iff.mp h
    have hback : SameIn bs as := hfound.symm hdistinct hlength (Value.entries_same_symm as hvalues)
    exact Node.descriptor_same_iff.mpr ⟨as, rfl, hlength.symm, hback⟩
  | .resolved a, _, hmaps, h => by
    obtain ⟨b, rfl, hsame⟩ := Node.resolved_same_iff.mp h
    exact Node.resolved_same_iff.mpr ⟨a, rfl, Live.Annotation.same_symm hmaps hsame⟩

theorem Value.entries_same_symm : ∀ as : List (String × Value), Value.EntriesOfMaps as →
    ∀ entry ∈ as, ∀ w, entry.2.same w = true → w.same entry.2 = true
  | [], _ => nofun
  | (_, _) :: as, ⟨hv, has⟩ =>
    List.forall_mem_cons.mpr ⟨fun _ => Value.same_symm hv, Value.entries_same_symm as has⟩

end

/-! ### one after the other -/

mutual

theorem Value.same_trans : ∀ {u v w : Value}, u.same v = true → v.same w = true → u.same w = true
  | .literal _, _, _, h, h' => by
    obtain ⟨m, rfl, hnumber⟩ := Value.literal_same_iff.mp h
    obtain ⟨n, rfl, hnumber'⟩ := Value.literal_same_iff.mp h'
    exact Value.literal_same_iff.mpr ⟨n, rfl, Literal.sameNumber_trans hnumber hnumber'⟩
  | .classLiteral _, _, _, h, h' => by
    obtain rfl := Value.classLiteral_same_iff.mp h
    exact h'
  | .enumConstant _ _, _, _, h, h' => by
    obtain rfl := Value.enumConstant_same_iff.mp h
    exact h'
  | .nested _, _, _, h, h' => by
    obtain ⟨n, rfl, hsame⟩ := Value.nested_same_iff.mp h
    obtain ⟨n', rfl, hsame'⟩ := Value.nested_same_iff.mp h'
    exact Value.nested_same_iff.mpr ⟨n', rfl, Node.same_trans hsame hsame'⟩
  | .array _, _, _, h, h' => by
    obtain ⟨vs, rfl, hsame⟩ := Value.array_same_iff.mp h
    obtain ⟨ws, rfl, hsame'⟩ := Value.array_same_iff.mp h'
    exact Value.array_same_iff.mpr ⟨ws, rfl, Value.sameAll_trans hsame hsame'⟩

theorem Value.sameAll_trans : ∀ {us vs ws : List Value}, Value.sameAll us vs = true →
    Value.sameAll vs ws = true → Value.sameAll us ws = true
  | [], _, _, h, h' => by
    obtain rfl := Value.nil_sameAll_iff.mp h
    exact h'
  | _ :: _, _, _, h, h' => by
    obtain ⟨v, vs, rfl, hhead, htail⟩ := Value.cons_sameAll_iff.mp h
    obtain ⟨w, ws, rfl, hhead', htail'⟩ := Value.cons_sameAll_iff.mp h'
    exact Value.cons_sameAll_iff.mpr
      ⟨w, ws, rfl, Value.same_trans hhead hhead', Value.sameAll_trans htail htail'⟩

theorem Node.same_trans : ∀ {l m n : Node}, l.same m = true → m.same n = true → l.same n = true
  | .descriptor _ as, _, _, h, h' => by
    obtain ⟨bs, rfl, hlength, hfound⟩ := Node.descriptor_same_iff.mp h
    obtain ⟨cs, rfl, hlength', hfound'⟩ := Node.descriptor_same_iff.mp h'
    have hthrough : SameIn as cs := hfound.trans hfound' (Value.entries_same_trans as)
    exact Node.descriptor_same_iff.mpr ⟨cs, rfl, hlength.trans hlength', hthrough⟩
  | .resolved _, _, _, h, h' => by
    obtain ⟨b, rfl, hsame⟩ := Node.resolved_same_iff.mp h
    obtain ⟨b', rfl, hsame'⟩ := Node.resolved_same_iff.mp h'
    exact Node.resolved_same_iff.mpr ⟨b', rfl, Live.Annotation.same_trans hsame hsame'⟩

theorem Value.entries_same_trans : ∀ as : List (String × Value),
    ∀ entry ∈ as, ∀ v w, entry.2.same v = true → v.same w = true → entry.2.same w = true
  | [] => nofun
  | (_, _) :: as => List.forall_mem_cons.mpr ⟨fun _ _ => Value.same_trans, Value.entries_same_trans as⟩

end

/-! ### a tree and itself -/

/-- Attributes without repetition are found in themselves if each value is the same as itself. -/
theorem sameIn_self_iff {as : List (String × Value)} (h : (Entries.names as).Nodup) :
    SameIn as as ↔ ∀ entry ∈ as, entry.2.same entry.2 = true := by
  refine forall₂_congr fun entry hentry => ?_
  rw [Entries.lookup_of_mem h hentry]
  simp

mutual

theorem Value.same_self_iff : ∀ v : Value, v.OfMaps → (v.same v = true ↔ AllNumbers v.literals)
  | .literal l, _ => by
    rw [Value.same, l.sameNumber_self, Bool.not_eq_true', Value.literals, AllNumbers,
      List.forall_mem_singleton]
  | .classLiteral _, _ => by simp [Value.same, Value.literals, AllNumbers]
  | .enumConstant _ _, _ => by simp [Value.same, Value.literals, AllNumbers]
  | .nested node, h => by
    rw [Value.same, Value.literals]
    exact node.same_self_iff h
  | .array vs, h => by
    rw [Value.same, Value.literals]
    exact Value.sameAll_self_iff vs h

theorem Value.sameAll_self_iff : ∀ vs : List Value, Value.AllOfMaps vs →
    (Value.sameAll vs vs = true ↔ AllNumbers (Value.listLiterals vs))
  | [], _ => by simp [Value.sameAll, Value.listLiterals, AllNumbers]
  | v :: vs, ⟨hv, hvs⟩ => by
    rw [Value.sameAll, Bool.and_eq_true, v.same_self_iff hv, Value.sameAll_self_iff vs hvs,
      Value.listLiterals, allNumbers_append]

theorem Node.same_self_iff : ∀ n : Node, n.OfMaps → (n.same n = true ↔ AllNumbers n.literals)
  | .descriptor _ as, ⟨hdistinct, hvalues⟩ => by
    rw [Node.same, BEq.rfl, BEq.rfl, Bool.true_and, Bool.true_and, Value.sameIn_iff,
      sameIn_self_iff hdistinct, Node.literals]
    exact Value.entries_same_self_iff as hvalues
  | .resolved a, hmaps => by
    -- its numbers are compared bit by bit
    simp [Node.same, a.same_self hmaps, Node.literals, AllNumbers]

theorem Value.entries_same_self_iff : ∀ as : List (String × Value), Value.EntriesOfMaps as →
    ((∀ entry ∈ as, entry.2.same entry.2 = true) ↔ AllNumbers (Value.entryLiterals as))
  | [], _ => by simp [Value.entryLiterals, AllNumbers]
  | (_, v) :: as, ⟨hv, has⟩ => by
    rw [List.forall_mem_cons, v.same_self_iff hv, Value.entries_same_self_iff as has, Value.entryLiterals,
      allNumbers_append]

end

/-! ### both -/

/-- A relation that is symmetric and transitive, and reflexive just where `p` is true. -/
structure PartialEquivalence {α : Type} (p : α → Prop) (R : α → α → Prop) : Prop where
  refl_iff : ∀ a, R a a ↔ p a
  symm : ∀ {a b}, R a b → R b a
  trans : ∀ {a b c}, R a b → R b c → R a c

/-- A value of a tree of maps, as all trees are that a program can have. -/
abbrev MapValue : Type := { v : Value // v.OfMaps }

/-- A tree of maps. -/
abbrev MapNode : Type := { n : Node // n.OfMaps }

/-- **Equality of trees is a partial equivalence: a tree is the same as itself if and only if its deferred
part holds no floating-point literal that is no number.** -/
theorem same_partialEquivalence :
    PartialEquivalence (fun v : MapValue => AllNumbers v.1.literals) (fun v w => v.1.same w.1 = true) ∧
      PartialEquivalence (fun n : MapNode => AllNumbers n.1.literals) (fun m n => m.1.same n.1 = true) := by
  constructor
  · refine ⟨?_, ?_, ?_⟩
    · intro v
      exact v.1.same_self_iff v.2
    · intro v w h
      exact Value.same_symm v.2 h
    · intro u v w h h'
      exact Value.same_trans h h'
  · refine ⟨?_, ?_, ?_⟩
    · intro n
      exact n.1.same_self_iff n.2
    · intro m n h
      exact Node.same_symm m.2 h
    · intro l m n h h'
      exact Node.same_trans h h'

/-- A box whose attributes come in another order and whose zero has another sign is the same box, although its
scale, which is live, is no number; a deferred scale that is none is not even the same as itself. -/
theorem live_and_deferred_scale :
    let scale : Live.Annotation Class :=
      ⟨.named .annotationInterface "Scale", [("by", .literal (.float 0x7FC00000))]⟩
    let m : Node := .descriptor "LBox;"
      [("scale", .nested (.resolved scale)), ("at", .array [.literal (.double 0)])]
    let n : Node := .descriptor "LBox;"
      [("at", .array [.literal (.double 0x8000000000000000)]), ("scale", .nested (.resolved scale))]
    let o : Node := .descriptor "LScale;" [("by", .array [.literal (.int 1), .literal (.float 0x7FC00000)])]
    ∃ box box' deferred : MapNode, box.1 = m ∧ box'.1 = n ∧ deferred.1 = o ∧ m.same n = true ∧
      n.same m = true ∧ m.same m = true ∧ ¬ o.same o = true := by
  intro scale m n o
  have hscale : Node.OfMaps (.resolved scale) := by
    have htype : (Thing.handle scale.type).Each Live.Annotation.Distinct := Thing.each_of_no_elements rfl
    refine Thing.each_live.mpr ⟨?_, htype, List.forall_mem_singleton.mpr (Thing.each_literal _)⟩
    unfold Live.Annotation.Distinct
    decide
  have hm : m.OfMaps := ⟨by decide, hscale, ⟨trivial, trivial⟩, trivial⟩
  have hn : n.OfMaps := ⟨by decide, ⟨trivial, trivial⟩, hscale, trivial⟩
  have ho : o.OfMaps := ⟨by decide, ⟨trivial, trivial, trivial⟩, trivial⟩
  have hsame : m.same n = true := by decide +kernel
  have hnumbers : ∀ l ∈ m.literals, l.isNaN = false := by decide
  have hnoNumber : ¬ ∀ l ∈ o.literals, l.isNaN = false := by decide
  obtain ⟨-, hnodes⟩ := same_partialEquivalence
  let box : MapNode := ⟨m, hm⟩
  let box' : MapNode := ⟨n, hn⟩
  let deferred : MapNode := ⟨o, ho⟩
  have hback : box'.1.same box.1 = true := hnodes.symm hsame
  exact ⟨box, box', deferred, rfl, rfl, rfl, hsame, hback, (hnodes.refl_iff box).mpr hnumbers,
    mt (hnodes.refl_iff deferred).mp hnoNumber⟩

end Deferred

end ClassMetadata
