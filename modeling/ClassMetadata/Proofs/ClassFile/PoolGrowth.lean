import ClassMetadata.Proofs.ClassFile.ConstantPool
import ClassMetadata.Proofs.ClassFile.Decoding

/-!
# Decoding with a larger pool

Constants that are pushed later change nothing for bytes that did not miss a constant.  Reading the same
bytes with the two pools goes the same way until the smaller pool misses a constant, and that ends it.

* `ConstantPool.Extends p q`: `q` has the constants of `p` at their indices; `extends_pushAll`: pushing keeps
  them, whether or not there is room;
* `SameUnlessMissing read read'`: the second reading does what the first one does, unless that misses a
  constant; `SameUnlessMissing.bind`: it is enough that this is so step by step;
* `sameUnlessMissing_elementValue`: values, by induction on the levels that are left;
* `decoding_ignores_later_constants`: **results and errors stay**, for one annotation and for a list.
-/

namespace ClassMetadata.ClassFile

open Deferred

/-! ### larger pools -/

/-- The constants of `p` are found in `q` as well. -/
def ConstantPool.Extends (p q : ConstantPool) : Prop :=
  ∀ index c, p.get? index = some c → q.get? index = some c

theorem ConstantPool.extends_pushAll (p : ConstantPool) (cs : List Constant) : p.Extends (p.pushAll cs) := by
  intro index c hc
  rw [get?_pushAll_of_lt cs (lt_size_of_get? hc), hc]

/-! ### two readings of the same bytes -/

section Readings

variable {α β : Type} {read read' : Reading α} {next next' : α → Reading β}

/-- The second reading does what the first one does, unless that misses a constant. -/
def SameUnlessMissing (read read' : Reading α) : Prop :=
  ∀ bytes, read' bytes = read bytes ∨ ∃ index kind, read bytes = .error (.badConstant index kind)

namespace SameUnlessMissing

theorem refl (read : Reading α) : SameUnlessMissing read read := fun _ => .inl rfl

theorem bind (h : SameUnlessMissing read read') (hnext : ∀ a, SameUnlessMissing (next a) (next' a)) :
    SameUnlessMissing (read >>= next) (read' >>= next') := by
  intro bytes
  rcases h bytes with hsame | ⟨index, kind, hmissing⟩
  · rw [bind_run, bind_run, hsame]
    cases hread : read bytes with
    | error e => exact .inl rfl
    | ok taken => exact hnext taken.1 taken.2
  · exact .inr ⟨index, kind, bind_eq_error_iff.mpr (.inl hmissing)⟩

/-- The same last step. -/
theorem map (h : SameUnlessMissing read read') (next : α → Reading β) :
    SameUnlessMissing (read >>= next) (read' >>= next) :=
  h.bind fun a => refl (next a)

theorem times (h : SameUnlessMissing read read') (n : Nat) :
    SameUnlessMissing (times read n) (times read' n) := by
  induction n with
  | zero => exact refl _
  | succ n ih => exact h.bind fun _ => ih.map _

theorem decodeWith (h : SameUnlessMissing read read') {bytes : List UInt8}
    (hfound : ∀ index kind, decodeWith read bytes ≠ .error (.badConstant index kind)) :
    decodeWith read' bytes = decodeWith read bytes := by
  rcases h bytes with hsame | ⟨index, kind, hmissing⟩
  · unfold ClassFile.decodeWith
    rw [hsame]
  · exact absurd (decodeWith_eq_error_iff.mpr (.inr ⟨_, hmissing, rfl⟩)) (hfound index kind)

end SameUnlessMissing

end Readings

/-! ### readings with two pools -/

section Pools

variable {p q : ConstantPool}

theorem sameUnlessMissing_constant {α : Type} (h : p.Extends q) (kind : ConstantKind)
    (pick : Constant → Option α) : SameUnlessMissing (constant p kind pick) (constant q kind pick) := by
  refine (SameUnlessMissing.refl u2).bind fun index rest => ?_
  cases hp : (p.get? index.toNat).bind pick with
  | none => exact .inr ⟨index, kind, rfl⟩
  | some a =>
    obtain ⟨c, hc, ha⟩ := Option.bind_eq_some_iff.mp hp
    have hq : (q.get? index.toNat).bind pick = some a := by
      rw [h _ c hc]
      exact ha
    rw [hq]
    exact .inl rfl

theorem sameUnlessMissing_utf8 (h : p.Extends q) : SameUnlessMissing (utf8 p) (utf8 q) :=
  sameUnlessMissing_constant h _ _

theorem sameUnlessMissing_baseLiteral (h : p.Extends q) (t : BaseType) :
    SameUnlessMissing (baseLiteral p t) (baseLiteral q t) := by
  cases t <;> exact (sameUnlessMissing_constant h _ _).map _

variable {element element' : Reading Value}

theorem sameUnlessMissing_annotationWith (h : p.Extends q) (helement : SameUnlessMissing element element') :
    SameUnlessMissing (annotationWith p element) (annotationWith q element') := by
  have hpair : SameUnlessMissing (do return (← utf8 p, ← element)) (do return (← utf8 q, ← element')) :=
    (sameUnlessMissing_utf8 h).bind fun _ => helement.map _
  refine (sameUnlessMissing_utf8 h).bind fun type => ?_
  exact (SameUnlessMissing.refl u2).bind fun count => (hpair.times count.toNat).map _

theorem sameUnlessMissing_arrayWith (here : List UInt8) (helement : SameUnlessMissing element element') :
    SameUnlessMissing (arrayWith here element) (arrayWith here element') :=
  (SameUnlessMissing.refl u2).bind fun count => (helement.times count.toNat).map _

/-- One level, if the values below it are read alike. -/
theorem sameUnlessMissing_elementWith (h : p.Extends q) {inner inner' : Option (Reading Value)}
    (hinner : Option.Rel SameUnlessMissing inner inner') :
    SameUnlessMissing (elementWith p inner) (elementWith q inner') := by
  refine (SameUnlessMissing.refl get).bind fun here => (SameUnlessMissing.refl byte).bind fun tag => ?_
  cases Tag.ofByte? tag with
  | none => exact .refl _
  | some t =>
    cases t with
    | base t => exact (sameUnlessMissing_baseLiteral h t).map _
    | string => exact (sameUnlessMissing_utf8 h).map _
    | enum => exact (sameUnlessMissing_utf8 h).bind fun _ => (sameUnlessMissing_utf8 h).map _
    | classLiteral => exact (sameUnlessMissing_utf8 h).map _
    | nested =>
      cases hinner with
      | none => exact .refl _
      | some helement => exact (sameUnlessMissing_annotationWith h helement).map _
    | array =>
      cases hinner with
      | none => exact .refl _
      | some helement => exact sameUnlessMissing_arrayWith here helement

/-- **Values**, by induction on the levels that are left. -/
theorem sameUnlessMissing_elementValue (h : p.Extends q) (levels : Nat) :
    SameUnlessMissing (elementValue p levels) (elementValue q levels) := by
  induction levels with
  | zero => exact sameUnlessMissing_elementWith h .none
  | succ levels ih => exact sameUnlessMissing_elementWith h (.some ih)

theorem sameUnlessMissing_node (h : p.Extends q) : SameUnlessMissing (node p) (node q) :=
  sameUnlessMissing_annotationWith h (sameUnlessMissing_elementValue h maxNesting)

theorem sameUnlessMissing_nodes (h : p.Extends q) : SameUnlessMissing (nodes p) (nodes q) :=
  (SameUnlessMissing.refl u2).bind fun count => (sameUnlessMissing_node h).times count.toNat

end Pools

/-- Whatever some bytes give with a pool, other than a missing constant, they give as well when constants have
been pushed on it. -/
theorem decoding_ignores_later_constants (pool : ConstantPool) (later : List Constant) (bytes : List UInt8) :
    ((∀ index kind, decodeNode pool bytes ≠ .error (.badConstant index kind)) →
      decodeNode (pool.pushAll later) bytes = decodeNode pool bytes) ∧
    ((∀ index kind, decodeNodes pool bytes ≠ .error (.badConstant index kind)) →
      decodeNodes (pool.pushAll later) bytes = decodeNodes pool bytes) := by
  have h := pool.extends_pushAll later
  exact ⟨(sameUnlessMissing_node h).decodeWith, (sameUnlessMissing_nodes h).decodeWith⟩

/-- One annotation that is decoded, and a list that ends within its second one. -/
theorem later_constants_ignored :
    let pool := ConstantPool.empty.pushAll [.utf8 "LTag;"]
    let later : List Constant := [.long 7, .utf8 "LOther;"]
    decodeNode pool [0, 1, 0, 0] = .ok (.descriptor "LTag;" []) ∧
      decodeNode (pool.pushAll later) [0, 1, 0, 0] = .ok (.descriptor "LTag;" []) ∧
      decodeNodes pool [0, 2, 0, 1, 0, 0, 0] = .error (.unexpectedEnd 6) ∧
      decodeNodes (pool.pushAll later) [0, 2, 0, 1, 0, 0, 0] = .error (.unexpectedEnd 6) := by
  intro pool later
  have hok : decodeNode pool [0, 1, 0, 0] = .ok (.descriptor "LTag;" []) := rfl
  have herror : decodeNodes pool [0, 2, 0, 1, 0, 0, 0] = .error (.unexpectedEnd 6) := rfl
  have hsame := (decoding_ignores_later_constants pool later [0, 1, 0, 0]).1 fun index kind h => by
    rw [hok] at h
    cases h
  have hsame' := (decoding_ignores_later_constants pool later [0, 2, 0, 1, 0, 0, 0]).2 fun index kind h => by
    rw [herror] at h
    cases h
  exact ⟨hok, hsame.trans hok, herror, hsame'.trans herror⟩

end ClassMetadata.ClassFile
