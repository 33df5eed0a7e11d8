import ClassMetadata.Proofs.ClassFile.Decoding

/-!
# A list of annotations, part by part

The decoder of a list goes through all of the bytes in one run; the decoder of one annotation starts afresh
and wants nothing left over.  They agree because a reading takes off the front just what would be decoded
alone.

* `Reads.alone`: that is so of every reading that has a grammar, whatever comes after;
* `Reads.front_unique`: so no front can be shorter than another one, and `Reads.parts_unique`: **parts put
  together come apart in one way only**, by induction on the parts;
* `decodeNodes_iff_splits`: a list is decoded exactly from its number and parts that decode to its members.
-/

namespace ClassMetadata.ClassFile

open Deferred

section Rows

variable {α : Type} {read : Reading α} {G : α → List UInt8 → Prop}

theorem Reads.decodeWith_iff (h : Reads read G) {bytes : List UInt8} {a : α} :
    decodeWith read bytes = .ok a ↔ G a bytes := by
  rw [decodeWith_eq_ok_iff, h]
  simp only [List.append_nil, exists_eq_left']

/-- **A reading takes off the front what would be decoded alone.** -/
theorem Reads.alone (h : Reads read G) : Reads read fun a bytes => decodeWith read bytes = .ok a :=
  h.congr fun _ _ => h.decodeWith_iff.symm

theorem Reads.front_unique (h : Reads read G) {a b : α} {front front' rest rest' : List UInt8}
    (ha : G a front) (hb : G b front') (heq : front ++ rest = front' ++ rest') :
    a = b ∧ front = front' ∧ rest = rest' := by
  have hfirst : read (front ++ rest) = .ok (a, rest) := (h _ _ _).mpr ⟨front, rfl, ha⟩
  have hsecond : read (front' ++ rest') = .ok (b, rest') := (h _ _ _).mpr ⟨front', rfl, hb⟩
  rw [heq, hsecond] at hfirst
  obtain ⟨rfl, rfl⟩ := Prod.mk.inj (Except.ok.inj hfirst)
  exact ⟨rfl, List.append_cancel_right heq, rfl⟩

theorem row_iff_forall₂ {as : List α} {bytes : List UInt8} :
    Row G as bytes ↔ ∃ parts, bytes = parts.flatten ∧ List.Forall₂ G as parts := by
  induction as generalizing bytes with
  | nil =>
    constructor
    · rintro rfl
      exact ⟨[], rfl, .nil⟩
    · rintro ⟨parts, rfl, hparts⟩
      cases hparts
      rfl
  | cons a as ih =>
    constructor
    · rintro ⟨front, back, rfl, ha, hrow⟩
      obtain ⟨parts, rfl, hparts⟩ := ih.mp hrow
      exact ⟨front :: parts, rfl, .cons ha hparts⟩
    · rintro ⟨parts, rfl, hparts⟩
      cases hparts with
      | cons ha hrest => exact ⟨_, _, rfl, ha, ih.mpr ⟨_, rfl, hrest⟩⟩

/-- **Parts come apart in one way only.**  The numbers of them have to agree, since a part may be empty. -/
theorem Reads.parts_unique (h : Reads read G) {as bs : List α} {parts parts' : List (List UInt8)}
    (ha : List.Forall₂ G as parts) (hb : List.Forall₂ G bs parts') (hlength : as.length = bs.length)
    (hflat : parts.flatten = parts'.flatten) : as = bs ∧ parts = parts' := by
  induction ha generalizing bs parts' with
  | nil =>
    obtain rfl : bs = [] := List.eq_nil_of_length_eq_zero hlength.symm
    cases hb
    exact ⟨rfl, rfl⟩
  | cons hfirst _ ih =>
    cases hb with
    | nil => cases hlength
    | cons hfirst' hrest' =>
      rw [List.flatten_cons, List.flatten_cons] at hflat
      obtain ⟨rfl, rfl, hrests⟩ := h.front_unique hfirst hfirst' hflat
      obtain ⟨rfl, rfl⟩ := ih hrest' (Nat.succ.inj hlength) hrests
      exact ⟨rfl, rfl⟩

end Rows

/-! ### lists of annotations -/

section Pool

variable {pool : ConstantPool} {bytes : List UInt8}

/-- The bytes are the number of annotations and, part by part, the annotations. -/
structure Splits (pool : ConstantPool) (bytes : List UInt8) (ns : List Node) (parts : List (List UInt8)) :
    Prop where
  length_le : ns.length ≤ 65535
  bytes_eq : bytes = bigEndian (UInt16.ofNat ns.length) ++ parts.flatten
  decodes : List.Forall₂ (fun n part => decodeNode pool part = .ok n) ns parts

theorem count_eq_ofNat_iff {count : UInt16} {n : Nat} :
    n = count.toNat ↔ n ≤ 65535 ∧ count = UInt16.ofNat n := by
  constructor
  · rintro rfl
    exact ⟨Nat.le_of_lt_succ count.toNat_lt, UInt16.ofNat_toNat.symm⟩
  · rintro ⟨hn, rfl⟩
    exact (UInt16.toNat_ofNat_of_lt' (Nat.lt_succ_of_le hn)).symm

theorem decodeNodes_eq_ok_iff_splits {ns : List Node} :
    decodeNodes pool bytes = .ok ns ↔ ∃ parts, Splits pool bytes ns parts := by
  have hread := reads_u2.bind fun count => (reads_node pool).alone.times count.toNat
  refine hread.decodeWith_iff.trans ?_
  constructor
  · rintro ⟨count, _, back, rfl, rfl, hcount, hrow⟩
    obtain ⟨parts, rfl, hparts⟩ := row_iff_forall₂.mp hrow
    obtain ⟨hlength, rfl⟩ := count_eq_ofNat_iff.mp hcount
    exact ⟨parts, hlength, rfl, hparts⟩
  · rintro ⟨parts, hlength, rfl, hparts⟩
    exact ⟨_, _, _, rfl, rfl, count_eq_ofNat_iff.mpr ⟨hlength, rfl⟩, row_iff_forall₂.mpr ⟨parts, rfl, hparts⟩⟩

theorem Splits.unique {ns ns' : List Node} {parts parts' : List (List UInt8)} (h : Splits pool bytes ns parts)
    (h' : Splits pool bytes ns' parts') : ns = ns' ∧ parts = parts' := by
  have hbytes := h.bytes_eq.symm.trans h'.bytes_eq
  obtain ⟨hcount, -, hflat⟩ := reads_u2.front_unique rfl rfl hbytes
  have hlength : ns.length = ns'.length :=
    (count_eq_ofNat_iff.mpr ⟨h.length_le, rfl⟩).trans
      ((congrArg UInt16.toNat hcount).trans (count_eq_ofNat_iff.mpr ⟨h'.length_le, rfl⟩).symm)
  exact (reads_node pool).alone.parts_unique h.decodes h'.decodes hlength hflat

end Pool

/-- A list is decoded exactly if the bytes split into its number and parts that decode to its members one by
one, and they split in one way only. -/
theorem decodeNodes_iff_splits (pool : ConstantPool) (bytes : List UInt8) :
    (∀ ns, decodeNodes pool bytes = .ok ns ↔ ∃ parts, Splits pool bytes ns parts) ∧
      ∀ ns ns' parts parts', Splits pool bytes ns parts → Splits pool bytes ns' parts' →
        ns = ns' ∧ parts = parts' :=
  ⟨fun _ => decodeNodes_eq_ok_iff_splits, fun _ _ _ _ => Splits.unique⟩

/-- Two annotations, the first of them longer than the second one. -/
theorem two_annotations_split :
    let pool := ConstantPool.empty.pushAll [.utf8 "LTag;", .utf8 "name"]
    let long : Node := .descriptor "LTag;" [("name", .literal (.string "name"))]
    let short : Node := .descriptor "LTag;" []
    let bytes : List UInt8 := [0, 2, 0, 1, 0, 1, 0, 2, 0x73, 0, 2, 0, 1, 0, 0]
    let parts : List (List UInt8) := [[0, 1, 0, 1, 0, 2, 0x73, 0, 2], [0, 1, 0, 0]]
    Splits pool bytes [long, short] parts ∧ decodeNodes pool bytes = .ok [long, short] ∧
      ∀ parts', Splits pool bytes [long, short] parts' → parts' = parts := by
  intro pool long short bytes parts
  have hsplits : Splits pool bytes [long, short] parts :=
    ⟨by decide, by decide, .cons rfl (.cons rfl .nil)⟩
  obtain ⟨hdecoded, hunique⟩ := decodeNodes_iff_splits pool bytes
  refine ⟨hsplits, (hdecoded _).mpr ⟨parts, hsplits⟩, fun parts' h => ?_⟩
  exact (hunique _ _ parts' parts h hsplits).2

end ClassMetadata.ClassFile
