import ClassMetadata.Proofs.ClassFile.Reading
import ClassMetadata.Proofs.Deferred.ArrayShape

/-!
# Decoding gives back what was encoded

* `reads_elementValue`: with so many levels left, a value is read exactly from the bytes of a source that
  nests no deeper and whose arrays are accepted; by induction on the levels, each level being
  `reads_elementWith` over the one below it;
* `decodeNode_eq_ok_iff`: **some bytes decode to a node exactly if they encode a source that means it**,
  and an integer that extends a narrower literal with its sign or with zeros is read as that literal.
-/

namespace ClassMetadata.ClassFile

open Deferred

/-! ### tags -/

/-- The letter of a tag. -/
def Tag.letter : Tag → Char
  | base t => t.descriptor
  | string => 's'
  | enum => 'e'
  | classLiteral => 'c'
  | nested => '@'
  | array => '['

theorem byteOf_ofNat (b : UInt8) : byteOf (Char.ofNat b.toNat) = b := by
  have hb : b.toNat < 256 := b.toNat_lt
  have hvalid : b.toNat.isValidChar := Or.inl (by omega)
  rw [byteOf, Char.ofNat, dif_pos hvalid]
  show UInt8.ofNat b.toNat = b
  exact UInt8.ofNat_toNat

theorem Tag.ofByte?_letter (t : Tag) : Tag.ofByte? (byteOf t.letter) = some t := by
  cases t with
  | base t => cases t <;> rfl
  | _ => rfl

theorem Tag.eq_of_ofByte? {b : UInt8} {t : Tag} (h : Tag.ofByte? b = some t) : b = byteOf t.letter := by
  have hletter : Char.ofNat b.toNat = t.letter := by
    unfold Tag.ofByte? at h
    simp only at h
    split at h
    · rename_i s hs
      cases h
      exact BaseType.ofDescriptor?_eq_some_iff.mp hs
    · split at h <;> cases h <;> assumption
  rw [← hletter, byteOf_ofNat]

/-- The tag of a literal. -/
def tagOf : LiteralType → Tag
  | .base t => .base t
  | .string => .string

/-- The tag that a value is written with. -/
def SourceValue.tag : SourceValue → Tag
  | .literal l => tagOf l.type
  | .enumConstant .. => .enum
  | .classLiteral _ => .classLiteral
  | .nested _ => .nested
  | .array _ => .array

theorem tagOf_injective {s t : LiteralType} (h : tagOf s = tagOf t) : s = t := by
  cases s <;> cases t <;> cases h <;> rfl

theorem letter_tagOf (t : LiteralType) : (tagOf t).letter = letterOf t := by cases t <;> rfl

theorem SourceValue.Encodes.exists_cons {pool : ConstantPool} {s : SourceValue} {bytes : List UInt8}
    (h : s.Encodes pool bytes) : ∃ body, bytes = byteOf s.tag.letter :: body := by
  cases s with
  | literal l =>
    obtain ⟨c, index, rfl, _⟩ := h
    exact ⟨index, by rw [SourceValue.tag, letter_tagOf]⟩
  | enumConstant signature constant =>
    obtain ⟨first, second, rfl, _⟩ := h
    exact ⟨first ++ second, rfl⟩
  | classLiteral signature =>
    obtain ⟨index, rfl, _⟩ := h
    exact ⟨index, rfl⟩
  | nested a =>
    obtain ⟨body, rfl, _⟩ := h
    exact ⟨body, rfl⟩
  | array vs =>
    obtain ⟨count, body, rfl, _⟩ := h
    exact ⟨bigEndian count ++ body, rfl⟩

/-- The tag in front of some bytes is that of the value they are. -/
theorem SourceValue.Encodes.ofByte? {pool : ConstantPool} {s : SourceValue} {b : UInt8} {bytes : List UInt8}
    (h : s.Encodes pool (b :: bytes)) : Tag.ofByte? b = some s.tag := by
  obtain ⟨body, hcons⟩ := h.exists_cons
  obtain ⟨rfl, -⟩ := List.cons.inj hcons
  exact Tag.ofByte?_letter s.tag

theorem SourceValue.Encodes.tag_eq {pool : ConstantPool} {s : SourceValue} {t : Tag} {bytes : List UInt8}
    (h : s.Encodes pool (byteOf t.letter :: bytes)) : s.tag = t := by
  have hs := h.ofByte?
  rw [Tag.ofByte?_letter] at hs
  exact (Option.some.inj hs).symm

/-! ### values that nest so deep -/

section Pool

variable {pool : ConstantPool} {levels : Nat} {element : Reading Value}

/-- The bytes of a source that means `v`, nests at most `levels` deep and has accepted arrays. -/
def Means (pool : ConstantPool) (levels : Nat) (v : Value) (bytes : List UInt8) : Prop :=
  ∃ s : SourceValue, s.Encodes pool bytes ∧ s.nesting ≤ levels ∧ s.ArraysAccepted ∧ v = s.value

/-- The bytes of a name and a value. -/
def MeansPair (pool : ConstantPool) (levels : Nat) (pair : String × Value) (bytes : List UInt8) : Prop :=
  ∃ index front, bytes = index ++ front ∧ Refers pool (.utf8 pair.1) index ∧ Means pool levels pair.2 front

theorem row_means_iff {vs : List Value} {bytes : List UInt8} :
    Row (Means pool levels) vs bytes ↔
      ∃ ss, SourceValue.AllEncode pool ss bytes ∧ SourceValue.nestingAll ss ≤ levels ∧
        SourceValue.AllArraysAccepted ss ∧ vs = SourceValue.values ss := by
  induction vs generalizing bytes with
  | nil =>
    constructor
    · rintro rfl
      exact ⟨[], rfl, Nat.zero_le _, trivial, rfl⟩
    · rintro ⟨ss, henc, -, -, hvs⟩
      cases ss with
      | nil => exact henc
      | cons s ss => cases hvs
  | cons v vs ih =>
    constructor
    · rintro ⟨front, back, rfl, ⟨s, henc, hnest, hacc, rfl⟩, hrow⟩
      obtain ⟨ss, hencs, hnests, haccs, rfl⟩ := ih.mp hrow
      exact ⟨s :: ss, ⟨front, back, rfl, henc, hencs⟩, Nat.max_le.mpr ⟨hnest, hnests⟩, ⟨hacc, haccs⟩, rfl⟩
    · rintro ⟨ss, henc, hnest, hacc, hvs⟩
      cases ss with
      | nil => cases hvs
      | cons s ss =>
        obtain ⟨hv, hvs⟩ := List.cons.inj hvs
        obtain ⟨front, back, rfl, henc, hencs⟩ := henc
        obtain ⟨hnest, hnests⟩ := Nat.max_le.mp hnest
        exact ⟨front, back, rfl, ⟨s, henc, hnest, hacc.1, hv⟩, ih.mpr ⟨ss, hencs, hnests, hacc.2, hvs⟩⟩

theorem row_meansPair_iff {pairs : List (String × Value)} {bytes : List UInt8} :
    Row (MeansPair pool levels) pairs bytes ↔
      ∃ ss, SourceNode.PairsEncode pool ss bytes ∧ SourceNode.pairsNesting ss ≤ levels ∧
        SourceNode.PairsArraysAccepted ss ∧ pairs = SourceNode.namedValues ss := by
  induction pairs generalizing bytes with
  | nil =>
    constructor
    · rintro rfl
      exact ⟨[], rfl, Nat.zero_le _, trivial, rfl⟩
    · rintro ⟨ss, henc, -, -, hpairs⟩
      cases ss with
      | nil => exact henc
      | cons s ss => cases hpairs
  | cons pair pairs ih =>
    obtain ⟨name, v⟩ := pair
    constructor
    · rintro ⟨_, back, rfl, ⟨index, front, rfl, hname, s, henc, hnest, hacc, hv⟩, hrow⟩
      obtain ⟨ss, hencs, hnests, haccs, rfl⟩ := ih.mp hrow
      obtain rfl : v = s.value := hv
      exact ⟨(name, s) :: ss, ⟨index, front, back, rfl, hname, henc, hencs⟩,
        Nat.max_le.mpr ⟨hnest, hnests⟩, ⟨hacc, haccs⟩, rfl⟩
    · rintro ⟨ss, henc, hnest, hacc, hpairs⟩
      cases ss with
      | nil => cases hpairs
      | cons s ss =>
        obtain ⟨sourceName, s⟩ := s
        obtain ⟨hpair, htail⟩ := List.cons.inj hpairs
        obtain ⟨rfl, rfl⟩ := Prod.mk.inj hpair
        obtain ⟨index, front, back, rfl, hname, henc, hencs⟩ := henc
        obtain ⟨hnest, hnests⟩ := Nat.max_le.mp hnest
        exact ⟨index ++ front, back, rfl, ⟨index, front, rfl, hname, s, henc, hnest, hacc.1, rfl⟩,
          ih.mpr ⟨ss, hencs, hnests, hacc.2, htail⟩⟩

theorem length_values (ss : List SourceValue) : (SourceValue.values ss).length = ss.length := by
  induction ss with
  | nil => rfl
  | cons s ss ih => rw [SourceValue.values, List.length_cons, List.length_cons, ih]

theorem length_namedValues (ss : List (String × SourceValue)) :
    (SourceNode.namedValues ss).length = ss.length := by
  induction ss with
  | nil => rfl
  | cons s ss ih => rw [SourceNode.namedValues, List.length_cons, List.length_cons, ih]

/-! ### one level -/

/-- **An annotation**, if its values are read level by level. -/
theorem reads_annotationWith (h : Reads element (Means pool levels)) :
    Reads (annotationWith pool element) fun n bytes =>
      ∃ a : SourceNode, a.Encodes pool bytes ∧ a.nesting ≤ levels ∧ a.ArraysAccepted ∧ n = a.node := by
  have hpair : Reads (do return (← utf8 pool, ← element)) (MeansPair pool levels) := by
    refine (reads_utf8.bind fun name => h.map).congr fun pair bytes => ?_
    constructor
    · rintro ⟨name, index, front, rfl, hname, v, rfl, hv⟩
      exact ⟨index, front, rfl, hname, hv⟩
    · rintro ⟨index, front, rfl, hname, hv⟩
      exact ⟨pair.1, index, front, rfl, hname, pair.2, rfl, hv⟩
  refine (reads_utf8.bind fun type => reads_u2.bind fun count =>
    (hpair.times count.toNat).map).congr fun n bytes => ?_
  constructor
  · rintro ⟨type, index, _, rfl, htype, count, _, body, rfl, rfl, pairs, rfl, hcount, hrow⟩
    obtain ⟨ss, henc, hnest, hacc, rfl⟩ := row_meansPair_iff.mp hrow
    rw [length_namedValues] at hcount
    refine ⟨⟨type, ss⟩, ⟨index, count, body, rfl, htype, hcount.symm, henc⟩, hnest, hacc, ?_⟩
    rw [Node.ofPairs, Entries.ofList_eq_collapse, SourceNode.node]
  · rintro ⟨⟨type, ss⟩, ⟨index, count, body, rfl, htype, hcount, henc⟩, hnest, hacc, rfl⟩
    refine ⟨type, index, _, rfl, htype, count, _, body, rfl, rfl, SourceNode.namedValues ss, ?_, ?_,
      row_meansPair_iff.mpr ⟨ss, henc, hnest, hacc, rfl⟩⟩
    · rw [Node.ofPairs, Entries.ofList_eq_collapse, SourceNode.node]
    · rw [length_namedValues, hcount]

/-- The elements are checked when they have all been read. -/
theorem reads_arrayWith (h : Reads element (Means pool levels)) (here : List UInt8) :
    Reads (arrayWith here element) fun v bytes =>
      ∃ (count : UInt16) (body : List UInt8) (ss : List SourceValue), bytes = bigEndian count ++ body ∧
        count.toNat = ss.length ∧ SourceValue.AllEncode pool ss body ∧ SourceValue.nestingAll ss ≤ levels ∧
        (SourceValue.array ss).ArraysAccepted ∧ v = .array (SourceValue.values ss) := by
  refine (reads_u2.bind fun count => (h.times count.toNat).bind (H := fun vs v bytes =>
    Value.checkedArray vs = .ok v ∧ bytes = []) fun vs => ?_).congr fun v bytes => ?_
  · cases Value.checkedArray vs with
    | ok array => exact (reads_pure array).congr fun v bytes => by simp [eq_comm]
    | error cause => exact (reads_throw _).congr fun v bytes => by simp
  constructor
  · rintro ⟨count, _, _, rfl, rfl, vs, body, _, rfl, ⟨hcount, hrow⟩, hok, rfl⟩
    obtain ⟨ss, henc, hnest, hacc, rfl⟩ := row_means_iff.mp hrow
    rw [length_values] at hcount
    exact ⟨count, body, ss, by rw [List.append_nil], hcount.symm, henc, hnest, ⟨⟨v, hok⟩, hacc⟩,
      (checkedArray_eq_ok_iff.mp hok).1⟩
  · rintro ⟨count, body, ss, rfl, hcount, henc, hnest, ⟨⟨array, hok⟩, hacc⟩, rfl⟩
    obtain rfl : array = .array (SourceValue.values ss) := (checkedArray_eq_ok_iff.mp hok).1
    exact ⟨count, _, body, rfl, rfl, SourceValue.values ss, body, [], by rw [List.append_nil],
      ⟨by rw [length_values, hcount], row_means_iff.mpr ⟨ss, henc, hnest, hacc, rfl⟩⟩, hok, rfl⟩

/-! What stands behind a tag. -/

theorem means_literal_iff {t : LiteralType} {v : Value} {bytes : List UInt8} :
    Means pool levels v (byteOf (tagOf t).letter :: bytes) ↔
      ∃ l, v = .literal l ∧ l.type = t ∧ ∃ c, Stored l c ∧ Refers pool c bytes := by
  constructor
  · rintro ⟨s, henc, -, -, rfl⟩
    have htag := henc.tag_eq
    cases s with
    | literal l =>
      obtain ⟨c, index, hbytes, hs, hc⟩ := henc
      obtain ⟨-, rfl⟩ := List.cons.inj hbytes
      exact ⟨l, rfl, tagOf_injective htag, c, hs, hc⟩
    | _ => cases t <;> cases htag
  · rintro ⟨l, rfl, rfl, c, hs, hc⟩
    exact ⟨.literal l, ⟨c, bytes, by rw [letter_tagOf], hs, hc⟩, Nat.zero_le _, trivial, rfl⟩

theorem means_enum_iff {v : Value} {bytes : List UInt8} :
    Means pool levels v (byteOf Tag.enum.letter :: bytes) ↔
      ∃ signature constant first second, v = .enumConstant signature constant ∧ bytes = first ++ second ∧
        Refers pool (.utf8 signature) first ∧ Refers pool (.utf8 constant) second := by
  constructor
  · rintro ⟨s, henc, -, -, rfl⟩
    have htag := henc.tag_eq
    cases s with
    | enumConstant signature constant =>
      obtain ⟨first, second, hbytes, hfirst, hsecond⟩ := henc
      exact ⟨signature, constant, first, second, rfl, (List.cons.inj hbytes).2, hfirst, hsecond⟩
    | literal l => cases l <;> cases htag
    | _ => cases htag
  · rintro ⟨signature, constant, first, second, rfl, rfl, hfirst, hsecond⟩
    exact ⟨.enumConstant signature constant, ⟨first, second, rfl, hfirst, hsecond⟩, Nat.zero_le _, trivial,
      rfl⟩

theorem means_classLiteral_iff {v : Value} {bytes : List UInt8} :
    Means pool levels v (byteOf Tag.classLiteral.letter :: bytes) ↔
      ∃ signature, v = .classLiteral signature ∧ Refers pool (.utf8 signature) bytes := by
  constructor
  · rintro ⟨s, henc, -, -, rfl⟩
    have htag := henc.tag_eq
    cases s with
    | classLiteral signature =>
      obtain ⟨index, hbytes, hindex⟩ := henc
      obtain ⟨-, rfl⟩ := List.cons.inj hbytes
      exact ⟨signature, rfl, hindex⟩
    | literal l => cases l <;> cases htag
    | _ => cases htag
  · rintro ⟨signature, rfl, hindex⟩
    exact ⟨.classLiteral signature, ⟨bytes, rfl, hindex⟩, Nat.zero_le _, trivial, rfl⟩

theorem means_nested_iff {v : Value} {bytes : List UInt8} :
    Means pool levels v (byteOf Tag.nested.letter :: bytes) ↔
      ∃ a : SourceNode, v = .nested a.node ∧ a.Encodes pool bytes ∧ a.nesting + 1 ≤ levels ∧
        a.ArraysAccepted := by
  constructor
  · rintro ⟨s, henc, hnest, hacc, rfl⟩
    have htag := henc.tag_eq
    cases s with
    | nested a =>
      obtain ⟨body, hbytes, henc⟩ := henc
      obtain ⟨-, rfl⟩ := List.cons.inj hbytes
      exact ⟨a, rfl, henc, hnest, hacc⟩
    | literal l => cases l <;> cases htag
    | _ => cases htag
  · rintro ⟨a, rfl, henc, hnest, hacc⟩
    exact ⟨.nested a, ⟨bytes, rfl, henc⟩, hnest, hacc, rfl⟩

theorem means_array_iff {v : Value} {bytes : List UInt8} :
    Means pool levels v (byteOf Tag.array.letter :: bytes) ↔
      ∃ (count : UInt16) (body : List UInt8) (ss : List SourceValue), bytes = bigEndian count ++ body ∧
        count.toNat = ss.length ∧ SourceValue.AllEncode pool ss body ∧
        SourceValue.nestingAll ss + 1 ≤ levels ∧ (SourceValue.array ss).ArraysAccepted ∧
        v = .array (SourceValue.values ss) := by
  constructor
  · rintro ⟨s, henc, hnest, hacc, rfl⟩
    have htag := henc.tag_eq
    cases s with
    | array ss =>
      obtain ⟨count, body, hbytes, hcount, henc⟩ := henc
      exact ⟨count, body, ss, (List.cons.inj hbytes).2, hcount, henc, hnest, hacc, rfl⟩
    | literal l => cases l <;> cases htag
    | _ => cases htag
  · rintro ⟨count, body, ss, rfl, hcount, henc, hnest, hacc, rfl⟩
    exact ⟨.array ss, ⟨count, body, rfl, hcount, henc⟩, hnest, hacc, rfl⟩

/-! ### all levels -/

theorem reads_stringLiteral :
    Reads (do return .literal (.string (← utf8 pool))) fun v bytes =>
      Means pool levels v (byteOf Tag.string.letter :: bytes) := by
  refine reads_utf8.map.congr fun v bytes => ?_
  refine Iff.trans ?_ (means_literal_iff (t := .string)).symm
  constructor
  · rintro ⟨s, rfl, hs⟩
    exact ⟨.string s, rfl, rfl, .utf8 s, rfl, hs⟩
  · rintro ⟨l, rfl, htype, c, hl, hc⟩
    cases l with
    | string s =>
      obtain rfl := stored_string_iff.mp hl
      exact ⟨s, rfl, hc⟩
    | _ => cases htype

theorem reads_enumConstant :
    Reads (do return .enumConstant (← utf8 pool) (← utf8 pool)) fun v bytes =>
      Means pool levels v (byteOf Tag.enum.letter :: bytes) := by
  refine (reads_utf8.bind fun signature => reads_utf8.map).congr fun v bytes => ?_
  rw [means_enum_iff]
  constructor
  · rintro ⟨signature, first, second, rfl, hfirst, constant, rfl, hsecond⟩
    exact ⟨signature, constant, first, second, rfl, rfl, hfirst, hsecond⟩
  · rintro ⟨signature, constant, first, second, rfl, rfl, hfirst, hsecond⟩
    exact ⟨signature, first, second, rfl, hfirst, constant, rfl, hsecond⟩

theorem reads_nested (h : Reads element (Means pool levels)) :
    Reads (do return .nested (← annotationWith pool element)) fun v bytes =>
      Means pool (levels + 1) v (byteOf Tag.nested.letter :: bytes) := by
  refine (reads_annotationWith h).map.congr fun v bytes => ?_
  rw [means_nested_iff]
  constructor
  · rintro ⟨_, rfl, a, henc, hnest, hacc, rfl⟩
    exact ⟨a, rfl, henc, Nat.succ_le_succ hnest, hacc⟩
  · rintro ⟨a, rfl, henc, hnest, hacc⟩
    exact ⟨a.node, rfl, a, henc, Nat.le_of_succ_le_succ hnest, hacc, rfl⟩

theorem reads_array (h : Reads element (Means pool levels)) (here : List UInt8) :
    Reads (arrayWith here element) fun v bytes =>
      Means pool (levels + 1) v (byteOf Tag.array.letter :: bytes) := by
  refine (reads_arrayWith h here).congr fun v bytes => ?_
  rw [means_array_iff]
  simp only [Nat.succ_le_succ_iff]

/-- `inner` reads the values of the levels below, if there are any. -/
def ReadsBelow (pool : ConstantPool) : Option (Reading Value) → Nat → Prop
  | none, levels => levels = 0
  | some element, levels => ∃ below, levels = below + 1 ∧ Reads element (Means pool below)

/-- One level: the tag is looked at first, and what it asks for is read with the level below. -/
theorem reads_elementWith {inner : Option (Reading Value)} (h : ReadsBelow pool inner levels) :
    Reads (elementWith pool inner) (Means pool levels) := by
  refine Reads.getBind fun here => ?_
  refine (reads_byte.bind (H := fun b v bytes => Means pool levels v (b :: bytes)) fun b => ?_).congr
    fun v bytes => ?_
  · cases ht : Tag.ofByte? b with
    | none =>
      -- no source has that tag
      refine (reads_throw _).congr fun v bytes => ⟨False.elim, ?_⟩
      rintro ⟨s, henc, -⟩
      rw [henc.ofByte?] at ht
      cases ht
    | some t =>
      obtain rfl := Tag.eq_of_ofByte? ht
      cases t with
      | base t => exact (reads_baseLiteral t).map.congr fun v bytes => means_literal_iff.symm
      | string => exact reads_stringLiteral
      | enum => exact reads_enumConstant
      | classLiteral => exact reads_utf8.map.congr fun v bytes => means_classLiteral_iff.symm
      | nested =>
        cases inner with
        | none =>
          obtain rfl : levels = 0 := h
          exact (reads_throw _).congr fun v bytes => by simp [means_nested_iff]
        | some element =>
          obtain ⟨below, rfl, hbelow⟩ := h
          exact reads_nested hbelow
      | array =>
        cases inner with
        | none =>
          obtain rfl : levels = 0 := h
          exact (reads_throw _).congr fun v bytes => by simp [means_array_iff]
        | some element =>
          obtain ⟨below, rfl, hbelow⟩ := h
          exact reads_array hbelow here
  constructor
  · rintro ⟨b, _, back, rfl, rfl, hv⟩
    exact hv
  · rintro ⟨s, henc, hrest⟩
    obtain ⟨body, rfl⟩ := henc.exists_cons
    exact ⟨_, [_], body, rfl, rfl, s, henc, hrest⟩

/-- **Values**, by induction on the levels that are left. -/
theorem reads_elementValue (pool : ConstantPool) (levels : Nat) :
    Reads (elementValue pool levels) (Means pool levels) := by
  induction levels with
  | zero => exact reads_elementWith (show ReadsBelow pool none 0 from rfl)
  | succ levels ih => exact reads_elementWith ⟨levels, rfl, ih⟩

end Pool

/-! ### extended integers -/

/-- The integer is a narrower literal with its sign, or with zeros, in front of it. -/
def Extended : Literal → Int32 → Prop
  | .byte v, w => w.toInt = v.toInt ∨ w.toInt = v.toUInt8.toNat
  | .short v, w => w.toInt = v.toInt ∨ w.toInt = v.toUInt16.toNat
  | .char u, w => w.toInt = u.toNat ∨ w.toInt = u.toInt16.toInt
  | .boolean b, w => w.toInt = b.toNat ∨ w.toInt = -b.toNat
  | .int v, w => w.toInt = v.toInt
  | _, _ => False

theorem stored_of_extended {l : Literal} {w : Int32} (h : Extended l w) : Stored l (.integer w) := by
  cases l with
  | byte v =>
    have hv : v.toInt = (v.toUInt8.toNat : Int).bmod 256 := BitVec.toInt_eq_toNat_bmod v.toBitVec
    show v.toInt = w.toInt.bmod 256
    rcases h with h | h
    · rw [h, hv, Int.bmod_bmod]
    · rw [h, hv]
  | short v =>
    have hv : v.toInt = (v.toUInt16.toNat : Int).bmod 65536 := BitVec.toInt_eq_toNat_bmod v.toBitVec
    show v.toInt = w.toInt.bmod 65536
    rcases h with h | h
    · rw [h, hv, Int.bmod_bmod]
    · rw [h, hv]
  | char u =>
    have hu : u.toInt16.toInt = (u.toNat : Int).bmod 65536 := BitVec.toInt_eq_toNat_bmod u.toBitVec
    have hlt : u.toNat < 2 ^ 16 := u.toNat_lt
    show (u.toNat : Int) = w.toInt % 65536
    rcases h with h | h
    · rw [h]
      omega
    · have hmod : (u.toNat : Int).bmod 65536 % (65536 : Nat) = (u.toNat : Int) % (65536 : Nat) :=
        Int.bmod_emod
      rw [h, hu]
      omega
  | boolean b =>
    show b = true ↔ w.toInt ≠ 0
    rcases h with h | h <;> rw [h] <;> cases b <;> decide
  | int v => exact Int32.toInt_inj.mp h.symm
  | _ => exact h.elim

/-! ### whole annotations -/

/-- An annotation has a source that nests no deeper than `maxNesting` and whose arrays are accepted. -/
theorem reads_node (pool : ConstantPool) :
    Reads (node pool) fun n bytes =>
      ∃ a : SourceNode, a.Encodes pool bytes ∧ a.nesting ≤ maxNesting ∧ a.ArraysAccepted ∧ n = a.node :=
  reads_annotationWith (reads_elementValue pool maxNesting)

theorem decodeWith_eq_ok_iff {α : Type} {read : Reading α} {bytes : List UInt8} {a : α} :
    decodeWith read bytes = .ok a ↔ read bytes = .ok (a, []) := by
  unfold decodeWith
  split
  · rename_i b h
    simp [h]
  · rename_i b rest hrest h
    simp only [h, reduceCtorEq, Except.ok.injEq, Prod.mk.injEq, false_iff]
    rintro ⟨rfl, rfl⟩
    exact hrest rfl
  · rename_i e h
    simp [h]

theorem decodeWith_eq_error_iff {α : Type} {read : Reading α} {bytes : List UInt8}
    {e : DecodeError Nat} :
    decodeWith read bytes = .error e ↔
      (∃ a rest, read bytes = .ok (a, rest) ∧ rest ≠ [] ∧ e = .trailingBytes (bytes.length - rest.length)) ∨
        ∃ cause, read bytes = .error cause ∧ e = cause.mapPlace fun here => bytes.length - here.length := by
  unfold decodeWith
  split
  · rename_i a h
    simp [h]
  · rename_i a rest hrest h
    simp only [h, Except.error.injEq, Except.ok.injEq, Prod.mk.injEq, reduceCtorEq, false_and, exists_false,
      or_false]
    constructor
    · rintro rfl
      exact ⟨a, rest, ⟨rfl, rfl⟩, hrest, rfl⟩
    · rintro ⟨_, _, ⟨rfl, rfl⟩, -, rfl⟩
      rfl
  · rename_i cause h
    simp [h, eq_comm]

/-- Some bytes are decoded exactly if they encode a source that nests no deeper than `maxNesting` and
whose arrays are accepted, and what is decoded is what the source means.  An integer that extends a
literal is read as that literal, at whatever level it stands and whatever comes after it. -/
theorem decodeNode_eq_ok_iff (pool : ConstantPool) :
    (∀ bytes n, decodeNode pool bytes = .ok n ↔
      ∃ a : SourceNode, a.Encodes pool bytes ∧ a.nesting ≤ maxNesting ∧ a.ArraysAccepted ∧ n = a.node) ∧
    ∀ (levels : Nat) (l : Literal) (w : Int32) (index : UInt16) (rest : List UInt8),
      Extended l w → pool.get? index.toNat = some (.integer w) →
        elementValue pool levels (byteOf (letterOf l.type) :: (bigEndian index ++ rest))
          = .ok (.literal l, rest) := by
  constructor
  · intro bytes n
    rw [decodeNode, decodeWith_eq_ok_iff, reads_node pool bytes n []]
    simp only [List.append_nil, exists_eq_left']
  · intro levels l w index rest hw hget
    refine (reads_elementValue pool levels _ _ _).mpr ⟨byteOf (letterOf l.type) :: bigEndian index, rfl, ?_⟩
    refine ⟨.literal l, ⟨.integer w, bigEndian index, rfl, stored_of_extended hw, index, rfl, hget⟩, ?_⟩
    exact ⟨Nat.zero_le _, trivial, rfl⟩

/-- The byte `-1` that was stored with zeros in front of it, between other bytes. -/
theorem elementValue_zeroExtended_byte :
    Extended (.byte (-1)) 255 ∧ (ConstantPool.empty.pushAll [.integer 255]).get? 1 = some (.integer 255) ∧
      elementValue (ConstantPool.empty.pushAll [.integer 255]) 0 [0x42, 0, 1, 7]
        = .ok (.literal (.byte (-1)), [7]) := by
  have hw : Extended (.byte (-1)) 255 := Or.inr rfl
  have hget : (ConstantPool.empty.pushAll [.integer 255]).get? 1 = some (.integer 255) := by decide
  exact ⟨hw, hget, (decodeNode_eq_ok_iff _).2 0 (.byte (-1)) 255 1 [7] hw hget⟩

end ClassMetadata.ClassFile
