import ClassMetadata.Proofs.ClassFile.Decoding
import ClassMetadata.Proofs.Deferred.DepthLimit
import ClassMetadata.Proofs.Live.Parts
import ClassMetadata.Environment

/-!
# Decoded annotations

Whatever bytes are decoded, the trees that come out are of one kind.  They are what some source means, and
so is everything that stands in them.

* `Written`: the nodes and values that a source with accepted arrays means; `written_of_inside`: **it is
  true of all that stands in something of which it is true**, though names are collapsed on the way;
* `nesting_node_le`: collapsing names only takes nesting away, so the limit of the decoder is a limit of the
  tree, measured as materialization does;
* `decoded_shape`: both, for one annotation and for a list of them.
-/

namespace ClassMetadata.ClassFile

open Deferred

/-! ### what stands in a decoded tree -/

/-- A node or a value that a source means, whose arrays are accepted.  There is no source for anything
else. -/
def Written : Thing → Prop
  | .node n => ∃ a : SourceNode, a.ArraysAccepted ∧ n = a.node
  | .deferred v => ∃ s : SourceValue, s.ArraysAccepted ∧ v = s.value
  | _ => False

theorem written_of_mem_values {ss : List SourceValue} (h : SourceValue.AllArraysAccepted ss) :
    ∀ v ∈ SourceValue.values ss, Written (.deferred v) := by
  induction ss with
  | nil => exact List.forall_mem_nil _
  | cons s ss ih => exact List.forall_mem_cons.mpr ⟨⟨s, h.1, rfl⟩, ih h.2⟩

theorem written_of_mem_namedValues {pairs : List (String × SourceValue)}
    (h : SourceNode.PairsArraysAccepted pairs) :
    ∀ entry ∈ SourceNode.namedValues pairs, Written (.deferred entry.2) := by
  induction pairs with
  | nil => exact List.forall_mem_nil _
  | cons pair pairs ih => exact List.forall_mem_cons.mpr ⟨⟨pair.2, h.1, rfl⟩, ih h.2⟩

theorem written_of_part {s t : Thing} (hpart : Part s t) (ht : Written t) : Written s := by
  cases hpart with
  | given hentry =>
    obtain ⟨⟨type, pairs⟩, hacc, hnode⟩ := ht
    obtain ⟨-, rfl⟩ := Node.descriptor.inj hnode
    exact written_of_mem_namedValues hacc _ (Entries.mem_of_mem_collapse hentry)
  | nestedNode n =>
    obtain ⟨s, hacc, hvalue⟩ := ht
    cases s with
    | nested a => exact ⟨a, hacc, Value.nested.inj hvalue⟩
    | _ => cases hvalue
  | deferredElement hv =>
    obtain ⟨s, hacc, hvalue⟩ := ht
    cases s with
    | array ss =>
      obtain rfl := Value.array.inj hvalue
      exact written_of_mem_values hacc.2 _ hv
    | _ => cases hvalue
  | resolved a =>
    obtain ⟨⟨type, pairs⟩, -, hnode⟩ := ht
    cases hnode
  | _ => exact ht.elim

/-- **Whatever stands in something written is written**, by induction on how deep it stands. -/
theorem written_of_inside {s t : Thing} (h : Inside s t) (ht : Written t) : Written s := by
  induction h using Relation.ReflTransGen.head_induction_on with
  | refl => exact ht
  | head hpart _ ih => exact written_of_part hpart ih

theorem not_resolved_of_written {n : Node} (h : Written (.node n)) : n.isResolved = false := by
  obtain ⟨⟨type, pairs⟩, -, rfl⟩ := h
  rfl

theorem checkedArray_of_written {vs : List Value} (h : Written (.deferred (.array vs))) :
    Value.checkedArray vs = .ok (.array vs) := by
  obtain ⟨s, hacc, hvalue⟩ := h
  cases s with
  | array ss =>
    obtain rfl := Value.array.inj hvalue
    obtain ⟨⟨array, hok⟩, -⟩ := hacc
    rwa [(checkedArray_eq_ok_iff.mp hok).1] at hok
  | _ => cases hvalue

/-! ### nesting -/

theorem entriesNesting_le_iff {entries : List (String × Value)} {k : Nat} :
    Value.entriesNesting entries ≤ k ↔ ∀ entry ∈ entries, entry.2.nesting ≤ k := by
  induction entries with
  | nil => simp [Value.entriesNesting]
  | cons entry entries ih =>
    rw [Value.entriesNesting, Nat.max_le, ih, List.forall_mem_cons]

theorem entriesNesting_collapse_le (entries : List (String × Value)) :
    Value.entriesNesting (Entries.collapse entries) ≤ Value.entriesNesting entries := by
  rw [entriesNesting_le_iff]
  intro entry hentry
  exact entriesNesting_le_iff.mp (Nat.le_refl _) entry (Entries.mem_of_mem_collapse hentry)

mutual

theorem nesting_value_le : ∀ s : SourceValue, s.value.nesting ≤ s.nesting
  | .literal _ | .enumConstant .. | .classLiteral _ => Nat.le_refl 0
  | .nested a => Nat.succ_le_succ (nesting_node_le a)
  | .array ss => Nat.succ_le_succ (nestingAll_values_le ss)

theorem nestingAll_values_le : ∀ ss : List SourceValue,
    Value.nestingAll (SourceValue.values ss) ≤ SourceValue.nestingAll ss
  | [] => Nat.le_refl 0
  | s :: ss => by
    have hfirst := nesting_value_le s
    have hrest := nestingAll_values_le ss
    simp only [SourceValue.values, Value.nestingAll, SourceValue.nestingAll]
    omega

/-- A node nests no deeper than its source; values that are set again may have been deeper. -/
theorem nesting_node_le : ∀ a : SourceNode, a.node.nesting ≤ a.nesting
  | ⟨_, pairs⟩ => Nat.le_trans (entriesNesting_collapse_le _) (entriesNesting_namedValues_le pairs)

theorem entriesNesting_namedValues_le : ∀ pairs : List (String × SourceValue),
    Value.entriesNesting (SourceNode.namedValues pairs) ≤ SourceNode.pairsNesting pairs
  | [] => Nat.le_refl 0
  | (_, s) :: pairs => by
    have hfirst := nesting_value_le s
    have hrest := entriesNesting_namedValues_le pairs
    simp only [SourceNode.namedValues, Value.entriesNesting, SourceNode.pairsNesting]
    omega

end

/-! ### decoding -/

section Pool

variable {pool : ConstantPool} {bytes : List UInt8} {n : Node}

theorem exists_of_mem_row {α : Type} {G : α → List UInt8 → Prop} {as : List α} {bytes : List UInt8}
    (h : Row G as bytes) : ∀ a ∈ as, ∃ front, G a front := by
  induction as generalizing bytes with
  | nil => exact List.forall_mem_nil _
  | cons a as ih =>
    obtain ⟨front, back, -, ha, hrow⟩ := h
    exact List.forall_mem_cons.mpr ⟨⟨front, ha⟩, ih hrow⟩

/-- What is decoded, alone or in a list, has a source. -/
theorem exists_source (h : decodeNode pool bytes = .ok n ∨ ∃ ns, decodeNodes pool bytes = .ok ns ∧ n ∈ ns) :
    ∃ a : SourceNode, a.nesting ≤ maxNesting ∧ a.ArraysAccepted ∧ n = a.node := by
  rcases h with h | ⟨ns, h, hn⟩
  · obtain ⟨front, -, a, -, hnest, hacc, rfl⟩ := (reads_node pool _ _ _).mp (decodeWith_eq_ok_iff.mp h)
    exact ⟨a, hnest, hacc, rfl⟩
  · have hread := reads_u2.bind fun count => (reads_node pool).times count.toNat
    obtain ⟨front, -, count, _, back, -, -, -, hrow⟩ := (hread _ _ _).mp (decodeWith_eq_ok_iff.mp h)
    obtain ⟨_, a, -, hnest, hacc, rfl⟩ := exists_of_mem_row hrow n hn
    exact ⟨a, hnest, hacc, rfl⟩

/-- **A decoded annotation** has no live annotations in it, every array in it has elements of one shape,
none of them an array, and it nests so that no materialization exceeds a limit of `maxNesting` or more,
whatever resolves and builds. -/
theorem decoded_shape
    (h : decodeNode pool bytes = .ok n ∨ ∃ ns, decodeNodes pool bytes = .ok ns ∧ n ∈ ns) :
    (∀ m, Inside (.node m) (.node n) → m.isResolved = false) ∧
      (∀ vs, Inside (.deferred (.array vs)) (.node n) →
        Value.checkedArray vs = .ok (.array vs) ∧ ∃ shape, shape ≠ .array ∧ ∀ v ∈ vs, v.shape = shape) ∧
      n.nesting ≤ 256 ∧
      ∀ cx : Context, 256 ≤ cx.maxDepth → ∀ limit, n.materialize cx ≠ .error (.depthLimitExceeded limit) := by
  obtain ⟨a, hnest, hacc, rfl⟩ := exists_source h
  have hwritten : Written (.node a.node) := ⟨a, hacc, rfl⟩
  have hnesting : a.node.nesting ≤ 256 := Nat.le_trans (nesting_node_le a) hnest
  refine ⟨?_, ?_, hnesting, ?_⟩
  · intro m hm
    exact not_resolved_of_written (written_of_inside hm hwritten)
  · intro vs hvs
    have hchecked := checkedArray_of_written (written_of_inside hvs hwritten)
    exact ⟨hchecked, (checkedArray_eq_ok_iff.mp hchecked).2⟩
  · intro cx hdepth
    apply (bounded_node cx [] 0 a.node (Nat.zero_le _)).within
    omega

end Pool

/-- The name `all` is given twice, first with a text and then with an array of annotations. -/
theorem decoded_shape_of_repeated_name :
    let pool := ConstantPool.empty.pushAll [.utf8 "LTag;", .utf8 "all", .utf8 "name"]
    let tag : Value := .nested (.descriptor "LTag;" [])
    let n : Node := .descriptor "LTag;" [("all", .array [tag, tag]), ("name", .literal (.string "all"))]
    let cx := (Environment.mk .core ⟨256⟩).context (.named .annotationInterface "Tag")
    decodeNode pool [0, 1, 0, 3, 0, 2, 0x73, 0, 3, 0, 3, 0x73, 0, 2, 0, 2, 0x5b, 0, 2,
        0x40, 0, 1, 0, 0, 0x40, 0, 1, 0, 0] = .ok n ∧
      Value.checkedArray [tag, tag] = .ok (.array [tag, tag]) ∧ n.nesting ≤ 256 ∧
      n.materialize cx ≠ .error (.depthLimitExceeded 256) := by
  intro pool tag n cx
  have hdecoded : decodeNode pool [0, 1, 0, 3, 0, 2, 0x73, 0, 3, 0, 3, 0x73, 0, 2, 0, 2, 0x5b, 0, 2,
      0x40, 0, 1, 0, 0, 0x40, 0, 1, 0, 0] = .ok n := rfl
  obtain ⟨-, harrays, hnesting, hlimit⟩ := decoded_shape (.inl hdecoded)
  have hentry : ("all", Value.array [tag, tag]) ∈
      [("all", Value.array [tag, tag]), ("name", .literal (.string "all"))] := List.mem_cons_self
  have hinside : Inside (.deferred (.array [tag, tag])) (.node n) := .single (.given hentry)
  exact ⟨hdecoded, (harrays _ hinside).1, hnesting, hlimit cx (Nat.le_refl 256) 256⟩

end ClassMetadata.ClassFile
