import ClassMetadata.Proofs.ClassFile.Decoding

/-!
# Where the bytes of an annotation end, and where they are wrong

A reading never looks beyond what it takes, so more bytes at the end change nothing that it has found out,
and the only complaint that they can mend is that the bytes are at an end.

* `DecodeError.PointsInto pool bytes e`: there is something at the place of the error that is wrong in the way
  it says;
* `Blames pool read`: **the errors of a reading point into its bytes, and the final ones stay** when more
  bytes follow;
* `BlamesBehind`: the same of what is read behind other bytes and may come back to the place where they begin;
  `BlamesBehind.bind`: it is enough that this is so step by step;
* `blames_elementValue`: values, by induction on the levels that are left;
* `SelfDelimiting`: what this makes of whole structures; `decode_selfDelimiting`: both decoders are so.

That the end of the bytes is all that a shortened structure can complain about needs no proof of its own:
whatever else it did would not be changed by the bytes that are missing (`unexpectedEnd_of_cut`).
-/

namespace ClassMetadata.ClassFile

open Deferred

/-! ### what an error says -/

/-- The byte stands in some bytes at a place, which is the bytes from there on. -/
def StandsAt (b : UInt8) (here bytes : List UInt8) : Prop := here <:+ bytes ∧ here.head? = some b

theorem standsAt_cons (b : UInt8) (body : List UInt8) : StandsAt b (b :: body) (b :: body) :=
  ⟨List.suffix_refl _, rfl⟩

theorem StandsAt.mono {b : UInt8} {here bytes more : List UInt8} (h : StandsAt b here bytes)
    (hmore : bytes <:+ more) : StandsAt b here more :=
  ⟨h.1.trans hmore, h.2⟩

/-- The place as an offset. -/
theorem StandsAt.getElem? {b : UInt8} {here bytes : List UInt8} (h : StandsAt b here bytes) :
    bytes[bytes.length - here.length]? = some b := by
  obtain ⟨⟨front, rfl⟩, hb⟩ := h
  have hoffset : (front ++ here).length - here.length = front.length := by
    rw [List.length_append, Nat.add_sub_cancel]
  rw [hoffset, List.getElem?_append_right (Nat.le_refl _), Nat.sub_self, ← List.head?_eq_getElem?, hb]

namespace DecodeError

/-- An error that more bytes do not mend. -/
def isFinal {place : Type} : DecodeError place → Bool
  | unexpectedEnd _ | trailingBytes _ => false
  | badConstant .. | unknownTag .. | arrayShape .. | tooDeep _ => true

/-- The error is to be found in the bytes that are read. -/
def PointsInto (pool : ConstantPool) (bytes : List UInt8) : DecodeError (List UInt8) → Prop
  | unexpectedEnd here => here <:+ bytes ∧ here.length < 2
  | badConstant index expected =>
    bigEndian index <:+: bytes ∧ ∀ c, pool.get? index.toNat = some c → c.kind ≠ expected
  | unknownTag tag here => StandsAt tag here bytes ∧ Tag.ofByte? tag = none
  | arrayShape here _ => StandsAt (byteOf '[') here bytes
  | tooDeep here => StandsAt (byteOf '@') here bytes ∨ StandsAt (byteOf '[') here bytes
  | trailingBytes _ => False

theorem PointsInto.mono {pool : ConstantPool} {bytes more : List UInt8} {e : DecodeError (List UInt8)}
    (h : e.PointsInto pool bytes) (hmore : bytes <:+ more) : e.PointsInto pool more := by
  cases e with
  | unexpectedEnd here => exact ⟨h.1.trans hmore, h.2⟩
  | badConstant index expected => exact ⟨h.1.trans hmore.isInfix, h.2⟩
  | unknownTag tag here => exact ⟨h.1.mono hmore, h.2⟩
  | arrayShape here cause => exact StandsAt.mono h hmore
  | tooDeep here => exact h.imp (fun h => h.mono hmore) fun h => h.mono hmore
  | trailingBytes here => exact h.elim

theorem mapPlace_mapPlace {α β γ : Type} (f : α → β) (g : β → γ) (e : DecodeError α) :
    (e.mapPlace f).mapPlace g = e.mapPlace (g ∘ f) := by
  cases e <;> rfl

theorem isFinal_mapPlace {α β : Type} (f : α → β) (e : DecodeError α) :
    (e.mapPlace f).isFinal = e.isFinal := by
  cases e <;> rfl

end DecodeError

/-! ### readings -/

section Readings

variable {α β : Type} {pool : ConstantPool} {front : List UInt8} {G : α → List UInt8 → Prop}

/-- What is read behind `front`, the place where that begins being at hand: an error points into the bytes
from there on and, if it is final, is there whatever comes after them. -/
def BlamesBehind (pool : ConstantPool) (front : List UInt8) (read : List UInt8 → Reading α) : Prop :=
  ∀ rest e, read (front ++ rest) rest = .error e → e.PointsInto pool (front ++ rest) ∧
    (e.isFinal = true → ∀ more, read (front ++ rest ++ more) (rest ++ more) = .error (e.mapPlace (· ++ more)))

/-- The errors of a reading point into its bytes, and the final ones stay. -/
def Blames (pool : ConstantPool) (read : Reading α) : Prop := BlamesBehind pool [] fun _ => read

theorem Blames.error {read : Reading α} (h : Blames pool read) {bytes : List UInt8}
    {e : DecodeError (List UInt8)} (he : read bytes = .error e) : e.PointsInto pool bytes ∧
      (e.isFinal = true → ∀ more, read (bytes ++ more) = .error (e.mapPlace (· ++ more))) :=
  h bytes e he

theorem Blames.behind {read : Reading α} (h : Blames pool read) (front : List UInt8) :
    BlamesBehind pool front fun _ => read := by
  intro rest e he
  obtain ⟨hpoints, hfinal⟩ := h rest e he
  exact ⟨hpoints.mono (List.suffix_append front rest), hfinal⟩

theorem blames_pure (a : α) : Blames pool (pure a) := by
  intro rest e he
  cases he

/-- Complaining about what has been read. -/
theorem blamesBehind_throw {complaint : List UInt8 → DecodeError (List UInt8)}
    (hpoints : ∀ rest, (complaint (front ++ rest)).PointsInto pool (front ++ rest))
    (hmap : ∀ here more, (complaint here).mapPlace (· ++ more) = complaint (here ++ more)) :
    BlamesBehind pool front fun here => (throw (complaint here) : Reading α) := by
  intro rest e he
  cases he
  exact ⟨hpoints rest, fun _ more => by rw [hmap]; rfl⟩

/-- Looking at the place where the reading is. -/
theorem BlamesBehind.getBind {read : List UInt8 → Reading α} (h : BlamesBehind pool [] read) :
    Blames pool (get >>= read) := h

/-- **One reading after the other**, the second one standing behind what the first one has taken. -/
theorem BlamesBehind.bind {read : Reading α} {next : List UInt8 → α → Reading β} (hread : Reads read G)
    (h : Blames pool read)
    (hnext : ∀ a taken, G a taken → BlamesBehind pool (front ++ taken) fun here => next here a) :
    BlamesBehind pool front fun here => read >>= next here := by
  intro rest e he
  rcases bind_eq_error_iff.mp he with hfirst | ⟨a, left, hok, hsecond⟩
  · obtain ⟨hpoints, hfinal⟩ := h.behind front rest e hfirst
    exact ⟨hpoints, fun hf more => bind_eq_error_iff.mpr (.inl (hfinal hf more))⟩
  · obtain ⟨taken, rfl, hG⟩ := (hread _ _ _).mp hok
    rw [← List.append_assoc] at hsecond ⊢
    obtain ⟨hpoints, hfinal⟩ := hnext a taken hG left e hsecond
    refine ⟨hpoints, fun hf more => bind_eq_error_iff.mpr (.inr ⟨a, left ++ more, ?_, hfinal hf more⟩)⟩
    exact (hread _ _ _).mpr ⟨taken, List.append_assoc .., hG⟩

theorem Blames.bind {read : Reading α} {next : α → Reading β} (hread : Reads read G) (h : Blames pool read)
    (hnext : ∀ a, Blames pool (next a)) : Blames pool (read >>= next) :=
  BlamesBehind.bind hread h fun a taken _ => (hnext a).behind taken

theorem Blames.map {read : Reading α} (hread : Reads read G) (h : Blames pool read) (f : α → β) :
    Blames pool (do return f (← read)) :=
  h.bind hread fun a => blames_pure (f a)

theorem Blames.times {read : Reading α} (hread : Reads read G) (h : Blames pool read) (n : Nat) :
    Blames pool (times read n) := by
  induction n with
  | zero => exact blames_pure []
  | succ n ih => exact h.bind hread fun a => ih.map (hread.times n) (a :: ·)

/-! ### numbers and constants -/

/-- A number fails only where too few bytes are left for it. -/
theorem blames_of_unexpectedEnd {read : Reading α}
    (h : ∀ bytes e, read bytes = .error e → e = .unexpectedEnd bytes ∧ bytes.length < 2) :
    Blames pool read := by
  intro bytes e he
  obtain ⟨rfl, hlength⟩ := h bytes e he
  exact ⟨⟨List.suffix_refl _, hlength⟩, fun hf => by cases hf⟩

theorem blames_byte : Blames pool byte := by
  refine blames_of_unexpectedEnd fun bytes e he => ?_
  match bytes, he with
  | [], he => exact ⟨(Except.error.inj he).symm, Nat.zero_lt_two⟩
  | _ :: _, he => cases he

theorem blames_u2 : Blames pool u2 := by
  refine blames_of_unexpectedEnd fun bytes e he => ?_
  match bytes, he with
  | [], he => exact ⟨(Except.error.inj he).symm, Nat.zero_lt_two⟩
  | [_], he => exact ⟨(Except.error.inj he).symm, Nat.one_lt_two⟩
  | _ :: _ :: _, he => cases he

theorem blames_constant {kind : ConstantKind} {pick : Constant → Option α}
    (h : ∀ c, pick c = none → c.kind ≠ kind) : Blames pool (constant pool kind pick) := by
  refine BlamesBehind.bind reads_u2 blames_u2 fun index taken htaken => ?_
  cases hfound : (pool.get? index.toNat).bind pick with
  | some a => exact (blames_pure a).behind _
  | none =>
    refine blamesBehind_throw (fun rest => ⟨?_, fun c hc => ?_⟩) fun _ _ => rfl
    · rw [htaken]
      exact (List.prefix_append _ rest).isInfix
    · rw [hc] at hfound
      exact h c hfound

theorem blames_utf8 : Blames pool (utf8 pool) :=
  blames_constant fun c hc => by cases c <;> simp_all [Constant.utf8?, Constant.kind]

theorem blames_integer : Blames pool (integer pool) :=
  blames_constant fun c hc => by cases c <;> simp_all [Constant.integer?, Constant.kind]

theorem blames_baseLiteral (t : BaseType) : Blames pool (baseLiteral pool t) := by
  have hlong : Blames pool (constant pool .long Constant.long?) :=
    blames_constant fun c hc => by cases c <;> simp_all [Constant.long?, Constant.kind]
  have hfloat : Blames pool (constant pool .float Constant.float?) :=
    blames_constant fun c hc => by cases c <;> simp_all [Constant.float?, Constant.kind]
  have hdouble : Blames pool (constant pool .double Constant.double?) :=
    blames_constant fun c hc => by cases c <;> simp_all [Constant.double?, Constant.kind]
  cases t with
  | long => exact hlong.map reads_constant _
  | float => exact hfloat.map reads_constant _
  | double => exact hdouble.map reads_constant _
  | _ => exact blames_integer.map reads_integer _

/-! ### values -/

variable {element : Reading Value}

theorem blames_annotationWith {G : Value → List UInt8 → Prop} (hread : Reads element G)
    (h : Blames pool element) : Blames pool (annotationWith pool element) := by
  have hpair : Blames pool (do return (← utf8 pool, ← element)) :=
    blames_utf8.bind reads_utf8 fun _ => h.map hread _
  have hreadPair : Reads (do return (← utf8 pool, ← element)) _ := reads_utf8.bind fun _ => hread.map
  refine blames_utf8.bind reads_utf8 fun type => blames_u2.bind reads_u2 fun count => ?_
  exact (hpair.times hreadPair count.toNat).map (hreadPair.times count.toNat) _

/-- The elements are read first; when their shapes do not agree it is the tag of the array that is shown. -/
theorem blamesBehind_arrayWith {G : Value → List UInt8 → Prop} (hread : Reads element G)
    (h : Blames pool element) : BlamesBehind pool [byteOf '['] fun here => arrayWith here element := by
  refine BlamesBehind.bind reads_u2 blames_u2 fun count _ _ => ?_
  refine BlamesBehind.bind (hread.times count.toNat) (h.times hread count.toNat) fun vs _ _ => ?_
  cases Value.checkedArray vs with
  | ok array => exact (blames_pure array).behind _
  | error cause => exact blamesBehind_throw (fun _ => standsAt_cons _ _) fun _ _ => rfl

/-- One level, the values below being read by `inner`, if there are any. -/
theorem blames_elementWith (levels : Nat) {inner : Option (Reading Value)}
    (h : ∀ element ∈ inner, Blames pool element ∧ Reads element (Means pool levels)) :
    Blames pool (elementWith pool inner) := by
  refine BlamesBehind.getBind (BlamesBehind.bind reads_byte blames_byte fun tag taken htaken => ?_)
  subst htaken
  cases ht : Tag.ofByte? tag with
  | none => exact blamesBehind_throw (fun rest => ⟨standsAt_cons tag rest, ht⟩) fun _ _ => rfl
  | some t =>
    obtain rfl := Tag.eq_of_ofByte? ht
    cases t with
    | base t => exact ((blames_baseLiteral t).map (reads_baseLiteral t) _).behind _
    | string => exact (blames_utf8.map reads_utf8 _).behind _
    | enum => exact (blames_utf8.bind reads_utf8 fun _ => blames_utf8.map reads_utf8 _).behind _
    | classLiteral => exact (blames_utf8.map reads_utf8 _).behind _
    | nested =>
      cases inner with
      | none => exact blamesBehind_throw (fun rest => .inl (standsAt_cons _ rest)) fun _ _ => rfl
      | some element =>
        obtain ⟨hblames, hread⟩ := h element rfl
        exact ((blames_annotationWith hread hblames).map (reads_annotationWith hread) _).behind _
    | array =>
      cases inner with
      | none => exact blamesBehind_throw (fun rest => .inr (standsAt_cons _ rest)) fun _ _ => rfl
      | some element =>
        obtain ⟨hblames, hread⟩ := h element rfl
        exact blamesBehind_arrayWith hread hblames

/-- **Values**, by induction on the levels that are left. -/
theorem blames_elementValue (pool : ConstantPool) (levels : Nat) :
    Blames pool (elementValue pool levels) := by
  induction levels with
  | zero => exact blames_elementWith 0 fun element h => by cases h
  | succ levels ih =>
    refine blames_elementWith levels fun element h => ?_
    obtain rfl := Option.mem_some_iff.mp h
    exact ⟨ih, reads_elementValue pool levels⟩

theorem blames_node (pool : ConstantPool) : Blames pool (node pool) :=
  blames_annotationWith (reads_elementValue pool maxNesting) (blames_elementValue pool maxNesting)

theorem blames_nodes (pool : ConstantPool) : Blames pool (nodes pool) :=
  blames_u2.bind reads_u2 fun count => (blames_node pool).times (reads_node pool) count.toNat

end Readings

/-! ### whole structures -/

section Whole

variable {α : Type} {pool : ConstantPool} {read : Reading α} {G : α → List UInt8 → Prop} {bytes : List UInt8}

/-- The bytes that are tags. -/
def tagBytes : List UInt8 :=
  ['B', 'C', 'D', 'F', 'I', 'J', 'S', 'Z', 's', 'e', 'c', '@', '['].map byteOf

theorem not_mem_tagBytes {b : UInt8} (h : Tag.ofByte? b = none) : b ∉ tagBytes := by
  have htags : tagBytes.all (fun b => (Tag.ofByte? b).isSome) = true := rfl
  intro hb
  have hsome := List.all_eq_true.mp htags b hb
  rw [h] at hsome
  cases hsome

/-- Where the error of some bytes is, and what is to be found there. -/
def DecodeError.Culprit (pool : ConstantPool) (decode : List UInt8 → Except (DecodeError Nat) α)
    (bytes : List UInt8) : DecodeError Nat → Prop
  | unexpectedEnd offset => offset ≤ bytes.length ∧ bytes.length < offset + 2
  | badConstant index expected =>
    (∃ front back, bytes = front ++ bigEndian index ++ back) ∧
      ∀ c, pool.get? index.toNat = some c → c.kind ≠ expected
  | unknownTag tag offset => bytes[offset]? = some tag ∧ tag ∉ tagBytes
  | arrayShape offset _ => bytes[offset]? = some (byteOf '[')
  | tooDeep offset => bytes[offset]? = some (byteOf '@') ∨ bytes[offset]? = some (byteOf '[')
  | trailingBytes offset => offset < bytes.length ∧ ∃ a, decode (bytes.take offset) = .ok a

/-- The bytes of a structure say where they end, and what is wrong with others is found in them. -/
structure SelfDelimiting (pool : ConstantPool) (decode : List UInt8 → Except (DecodeError Nat) α) : Prop where
  /-- What follows a structure is left over. -/
  trailingBytes_of_append : ∀ bytes a more, decode bytes = .ok a → more ≠ [] →
    decode (bytes ++ more) = .error (.trailingBytes bytes.length)
  /-- A shortened structure ends too early. -/
  unexpectedEnd_of_cut : ∀ front back a, decode (front ++ back) = .ok a → back ≠ [] →
    ∃ offset, decode front = .error (.unexpectedEnd offset)
  /-- What is wrong stays wrong. -/
  error_append : ∀ bytes e more, decode bytes = .error e → e.isFinal = true →
    decode (bytes ++ more) = .error e
  culprit : ∀ bytes e, decode bytes = .error e → e.Culprit pool decode bytes

theorem culprit_of_pointsInto {decode : List UInt8 → Except (DecodeError Nat) α}
    {cause : DecodeError (List UInt8)} (h : cause.PointsInto pool bytes) :
    (cause.mapPlace fun here => bytes.length - here.length).Culprit pool decode bytes := by
  cases cause with
  | unexpectedEnd here =>
    have hlength := h.1.length_le
    have hshort := h.2
    show bytes.length - here.length ≤ bytes.length ∧ bytes.length < bytes.length - here.length + 2
    omega
  | badConstant index expected =>
    obtain ⟨⟨front, back, hbytes⟩, hkind⟩ := h
    exact ⟨⟨front, back, hbytes.symm⟩, hkind⟩
  | unknownTag tag here => exact ⟨h.1.getElem?, not_mem_tagBytes h.2⟩
  | arrayShape here cause => exact StandsAt.getElem? h
  | tooDeep here => exact h.imp StandsAt.getElem? StandsAt.getElem?
  | trailingBytes here => exact h.elim

/-- **A reading that stays within its bytes makes a self-delimiting structure.** -/
theorem selfDelimiting_decodeWith (hread : Reads read G) (h : Blames pool read) :
    SelfDelimiting pool (decodeWith read) where
  trailingBytes_of_append := by
    intro bytes a more hok hmore
    obtain ⟨front, hfront, hany⟩ := hread.anyRest (decodeWith_eq_ok_iff.mp hok)
    obtain rfl : bytes = front := by rw [hfront, List.append_nil]
    refine decodeWith_eq_error_iff.mpr (.inl ⟨a, more, hany more, hmore, ?_⟩)
    rw [List.length_append, Nat.add_sub_cancel]
  unexpectedEnd_of_cut := by
    intro front back a hok hback
    have hwhole := decodeWith_eq_ok_iff.mp hok
    cases hcut : read front with
    | ok taken =>
      -- then `back` would have been left over
      obtain ⟨b, rest⟩ := taken
      obtain ⟨taken, rfl, hany⟩ := hread.anyRest hcut
      rw [List.append_assoc, hany] at hwhole
      have hnil : rest ++ back = [] := congrArg Prod.snd (Except.ok.inj hwhole)
      exact absurd (List.append_eq_nil_iff.mp hnil).2 hback
    | error cause =>
      obtain ⟨hpoints, hfinal⟩ := h.error hcut
      cases cause with
      | unexpectedEnd here => exact ⟨_, decodeWith_eq_error_iff.mpr (.inr ⟨_, hcut, rfl⟩)⟩
      | trailingBytes here => exact hpoints.elim
      | _ =>
        -- then `back` could not have mended it
        rw [hfinal rfl back] at hwhole
        cases hwhole
  error_append := by
    intro bytes e more herror hf
    rcases decodeWith_eq_error_iff.mp herror with ⟨a, rest, -, -, rfl⟩ | ⟨cause, hcause, rfl⟩
    · cases hf
    · rw [DecodeError.isFinal_mapPlace] at hf
      refine decodeWith_eq_error_iff.mpr (.inr ⟨_, (h.error hcause).2 hf more, ?_⟩)
      rw [DecodeError.mapPlace_mapPlace]
      congr 1
      funext here
      show _ = (bytes ++ more).length - (here ++ more).length
      rw [List.length_append, List.length_append, Nat.add_sub_add_right]
  culprit := by
    intro bytes e herror
    rcases decodeWith_eq_error_iff.mp herror with ⟨a, rest, hok, hrest, rfl⟩ | ⟨cause, hcause, rfl⟩
    · obtain ⟨front, rfl, hany⟩ := hread.anyRest hok
      have hlength : 0 < rest.length := List.length_pos_iff.mpr hrest
      have hoffset : (front ++ rest).length - rest.length = front.length := by
        rw [List.length_append, Nat.add_sub_cancel]
      rw [hoffset]
      refine ⟨by rw [List.length_append]; omega, a, ?_⟩
      rw [List.take_left' rfl, decodeWith_eq_ok_iff]
      simpa using hany []
    · exact culprit_of_pointsInto (h.error hcause).1

/-- One annotation, and a list of them. -/
theorem decode_selfDelimiting (pool : ConstantPool) :
    SelfDelimiting pool (decodeNode pool) ∧ SelfDelimiting pool (decodeNodes pool) := by
  have hnodes := reads_u2.bind fun count => (reads_node pool).times count.toNat
  exact ⟨selfDelimiting_decodeWith (reads_node pool) (blames_node pool),
    selfDelimiting_decodeWith hnodes (blames_nodes pool)⟩

end Whole

/-- An annotation with one array, whose elements disagree once the second of them is a string. -/
theorem annotation_with_array_delimited :
    let pool := ConstantPool.empty.pushAll [.utf8 "LTag;", .integer 5]
    let front : List UInt8 := [0, 1, 0, 1, 0, 1, 0x5b, 0, 2, 0x49, 0, 2]
    let n : Node := .descriptor "LTag;" [("LTag;", .array [.literal (.int 5), .literal (.int 5)])]
    decodeNode pool (front ++ [0x49, 0, 2]) = .ok n ∧
      decodeNode pool (front ++ [0x49, 0, 2] ++ [7]) = .error (.trailingBytes 15) ∧
      (∃ offset, decodeNode pool front = .error (.unexpectedEnd offset)) ∧
      ∃ e, decodeNode pool (front ++ [0x73, 0, 1]) = .error e ∧
        decodeNode pool (front ++ [0x73, 0, 1] ++ [7]) = .error e ∧
        e.Culprit pool (decodeNode pool) (front ++ [0x73, 0, 1]) := by
  intro pool front n
  have hok : decodeNode pool (front ++ [0x49, 0, 2]) = .ok n := rfl
  have herror : decodeNode pool (front ++ [0x73, 0, 1]) =
      .error (.arrayShape 6 (.heterogeneous 1 (.literal (.base .int)) (.literal .string))) := rfl
  obtain ⟨h, -⟩ := decode_selfDelimiting pool
  exact ⟨hok, h.trailingBytes_of_append _ n [7] hok (by decide),
    h.unexpectedEnd_of_cut front _ n hok (by decide),
    _, herror, h.error_append _ _ [7] herror rfl, h.culprit _ _ herror⟩

end ClassMetadata.ClassFile
