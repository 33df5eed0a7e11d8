import ClassMetadata.Environment
import ClassMetadata.Proofs.Resolution
import ClassMetadata.Proofs.Deferred.Outcome
import ClassMetadata.Proofs.Deferred.ArrayShape
import ClassMetadata.Proofs.Live.Construction
import Mathlib.Data.List.Forall2

/-!
# The two checks of an array agree

An array is checked twice: before anything is resolved, by the shapes of its elements, and when an
annotation is made, by the type that is declared for them.  The second check sees classes where the first
one sees texts.

* `Live.Value.shape`, `ElementType.shape`: what the second check compares; `conforms_iff` reads it so;
* `shape_of_materialize`: **a value and its live value have one shape**, since the class that a signature
  resolves to is called what the signature says;
* `checkedArray_iff_conforms`: **the elements pass the first check exactly if there is a type, which is no
  array type, that all their live values have**.
-/

namespace ClassMetadata

open Deferred (Shape)

/-! ### shapes of live values and of declared types -/

/-- The shape of a live value. -/
def Live.Value.shape : Live.Value Class → Shape
  | .literal l => .literal l.type
  | .classLiteral _ => .classLiteral
  | .enumConstant c _ _ => .enum c.name
  | .nested a => .nested a.type.name
  | .array _ => .array

/-- The shape that the values of a declared type have. -/
def ElementType.shape : ElementType → Shape
  | literal t => .literal t
  | classLiteral => .classLiteral
  | enum name => .enum name
  | nested name => .nested name
  | array _ => .array

theorem ElementType.shape_ne_array_iff {t : ElementType} :
    t.shape ≠ .array ↔ ∀ component, t ≠ .array component := by
  cases t <;> simp [ElementType.shape]

theorem ElementType.exists_shape (s : Shape) : ∃ t : ElementType, t.shape = s := by
  cases s with
  | literal t => exact ⟨.literal t, rfl⟩
  | classLiteral => exact ⟨.classLiteral, rfl⟩
  | enum name => exact ⟨.enum name, rfl⟩
  | nested name => exact ⟨.nested name, rfl⟩
  | array => exact ⟨.array .classLiteral, rfl⟩

/-- Only the elements of arrays are not seen by their shape. -/
theorem Live.Value.conforms_iff {v : Live.Value Class} {t : ElementType} (ht : t.shape ≠ .array) :
    v.conforms t = true ↔ v.shape = t.shape := by
  cases t with
  | array component => exact absurd rfl ht
  | _ => cases v <;> simp [Live.Value.conforms, Live.Value.shape, ElementType.shape]

/-! ### materialization keeps the shape -/

namespace Deferred

variable {env : Environment} {scope : Class} {depth : Nat}

theorem typeName_of_materializeAt {node : Node} {a : Live.Annotation Class}
    (h : (node.materializeAt depth (env.context scope)).result = .ok a) : node.typeName = a.type.name := by
  cases node with
  | resolved live =>
    obtain rfl := materializeAt_resolved.mp h
    rfl
  | descriptor signature attributes =>
    obtain ⟨c, _, values, htype, -, hbuild⟩ := materializeAt_descriptor.mp h
    have hname : binaryNameOf signature = c.name := Registry.name_of_resolve htype
    have hc : a.type = c := Class.type_of_construct hbuild
    rw [Node.typeName, hname, hc]

theorem shape_of_materializeAt {v : Value} {live : Live.Value Class}
    (h : (v.materializeAt depth (env.context scope)).result = .ok live) : v.shape = live.shape := by
  cases v with
  | literal l =>
    obtain rfl := materializeAt_literal.mp h
    rfl
  | classLiteral signature =>
    obtain ⟨type, -, rfl⟩ := materializeAt_classLiteral.mp h
    rfl
  | enumConstant signature constant =>
    obtain ⟨c, i, htype, -, -, rfl⟩ := materializeAt_enumConstant.mp h
    have hname : binaryNameOf signature = c.name := Registry.name_of_resolve htype
    rw [Value.shape, hname, Live.Value.shape]
  | nested node =>
    obtain ⟨-, a, ha, rfl⟩ := materializeAt_nested.mp h
    rw [Value.shape, typeName_of_materializeAt ha, Live.Value.shape]
  | array vs =>
    obtain ⟨-, lives, -, rfl⟩ := materializeAt_array.mp h
    rfl

/-- **A value and its live value have one shape.** -/
theorem shape_of_materialize {v : Value} {live : Live.Value Class}
    (h : v.materialize (env.context scope) = .ok live) : v.shape = live.shape :=
  shape_of_materializeAt h

/-! ### arrays -/

theorem forall_shape_iff {vs : List Value} {lives : List (Live.Value Class)}
    (h : List.Forall₂ (fun v live => v.materialize (env.context scope) = .ok live) vs lives) (s : Shape) :
    (∀ v ∈ vs, v.shape = s) ↔ ∀ live ∈ lives, live.shape = s := by
  induction h with
  | nil => simp
  | cons hhead _ ih =>
    rw [List.forall_mem_cons, List.forall_mem_cons, shape_of_materialize hhead, ih]

/-- **The elements make an array exactly if their live values are of one type that is no array type**, in
every environment and scope in which they all have live values. -/
theorem checkedArray_iff_conforms (env : Environment) (scope : Class) {vs : List Value}
    {lives : List (Live.Value Class)}
    (h : List.Forall₂ (fun v live => v.materialize (env.context scope) = .ok live) vs lives) :
    (∃ array, Value.checkedArray vs = .ok array) ↔
      ∃ t : ElementType, (∀ component, t ≠ .array component) ∧ ∀ live ∈ lives, live.conforms t = true := by
  constructor
  · rintro ⟨array, hok⟩
    obtain ⟨-, s, hs, hall⟩ := checkedArray_eq_ok_iff.mp hok
    obtain ⟨t, rfl⟩ := ElementType.exists_shape s
    refine ⟨t, ElementType.shape_ne_array_iff.mp hs, fun live hlive => ?_⟩
    rw [Live.Value.conforms_iff hs]
    exact (forall_shape_iff h t.shape).mp hall live hlive
  · rintro ⟨t, ht, hall⟩
    have hs : t.shape ≠ .array := ElementType.shape_ne_array_iff.mpr ht
    have hlives : ∀ live ∈ lives, live.shape = t.shape :=
      fun live hlive => (Live.Value.conforms_iff hs).mp (hall live hlive)
    exact ⟨.array vs, checkedArray_eq_ok_iff.mpr ⟨rfl, t.shape, hs, (forall_shape_iff h t.shape).mpr hlives⟩⟩

/-- Both spellings of an inner annotation type, and an annotation of it that was live before. -/
theorem checkedArray_spellings :
    let inner := Class.named .annotationInterface "pkg.Outer$Inner"
    let env := Environment.ofRegistry (Registry.empty.registerAll [inner])
    let vs : List Value := [.nested (.descriptor "Lpkg/Outer.Inner;" []),
      .nested (.descriptor "Lpkg/Outer$Inner;" []), .nested (.resolved ⟨inner, []⟩)]
    let lives : List (Live.Value Class) := List.replicate 3 (.nested ⟨inner, []⟩)
    List.Forall₂ (fun v live => v.materialize (env.context inner) = .ok live) vs lives ∧
      Value.checkedArray vs = .ok (.array vs) ∧
        ∃ t : ElementType, (∀ component, t ≠ .array component) ∧ ∀ live ∈ lives, live.conforms t = true := by
  intro inner env vs lives
  have h : List.Forall₂ (fun v live => v.materialize (env.context inner) = .ok live) vs lives :=
    .cons rfl (.cons rfl (.cons rfl .nil))
  have hchecked : Value.checkedArray vs = .ok (.array vs) := rfl
  exact ⟨h, hchecked, (checkedArray_iff_conforms env inner h).mp ⟨.array vs, hchecked⟩⟩

end Deferred

end ClassMetadata
