import ClassMetadata.Proofs.ClassFile.Encoding

/-!
# What a reading accepts

A reading takes some bytes off the front.  `Reads read G` says that it takes exactly the bytes that a
grammar `G` has for its result, whatever comes after them; both directions are in one equivalence, so a
reading that is put together from others needs one proof.

* `reads_pure`, `reads_throw`, `Reads.bind`, `Reads.map`, `Reads.getBind`: putting readings together;
* `Reads.times`: so many things one after the other have the bytes of a `Row`;
* `reads_u2`, `reads_constant`: numbers and constants;
* `reads_baseLiteral`: **a literal of a base type is read from what it is stored as**.
-/

namespace ClassMetadata.ClassFile

section Combine

variable {α β : Type} {read : Reading α} {next : α → Reading β} {G : α → List UInt8 → Prop}

/-- `read` takes off the front the bytes of its result. -/
def Reads (read : Reading α) (G : α → List UInt8 → Prop) : Prop :=
  ∀ bytes a rest, read bytes = .ok (a, rest) ↔ ∃ front, bytes = front ++ rest ∧ G a front

theorem Reads.congr {G' : α → List UInt8 → Prop} (h : Reads read G)
    (hG : ∀ a bytes, G a bytes ↔ G' a bytes) : Reads read G' := by
  intro bytes a rest
  rw [h bytes a rest]
  simp only [hG]

theorem reads_pure (a : α) : Reads (pure a) fun b bytes => b = a ∧ bytes = [] := by
  intro bytes b rest
  have hrun : (pure a : Reading α) bytes = .ok (a, bytes) := rfl
  rw [hrun]
  constructor
  · intro h
    cases h
    exact ⟨[], rfl, rfl, rfl⟩
  · rintro ⟨front, rfl, rfl, rfl⟩
    rfl

theorem reads_throw (e : DecodeError (List UInt8)) : Reads (throw e : Reading α) fun _ _ => False := by
  intro bytes a rest
  have hrun : (throw e : Reading α) bytes = .error e := rfl
  rw [hrun]
  constructor
  · intro h
    cases h
  · rintro ⟨_, _, hfalse⟩
    exact hfalse.elim

theorem bind_run (read : Reading α) (next : α → Reading β) (bytes : List UInt8) :
    (read >>= next) bytes = (read bytes).bind fun taken => next taken.1 taken.2 := rfl

theorem bind_eq_ok_iff {bytes rest : List UInt8} {b : β} :
    (read >>= next) bytes = .ok (b, rest) ↔
      ∃ a middle, read bytes = .ok (a, middle) ∧ next a middle = .ok (b, rest) := by
  rw [bind_run]
  cases read bytes <;> simp [Except.bind, Prod.ext_iff]

theorem bind_eq_error_iff {bytes : List UInt8} {e : DecodeError (List UInt8)} :
    (read >>= next) bytes = .error e ↔
      read bytes = .error e ∨ ∃ a middle, read bytes = .ok (a, middle) ∧ next a middle = .error e := by
  rw [bind_run]
  cases read bytes <;> simp [Except.bind, Prod.ext_iff]

/-- What is taken off the front is so whatever comes after it. -/
theorem Reads.anyRest (h : Reads read G) {bytes rest : List UInt8} {a : α}
    (hread : read bytes = .ok (a, rest)) :
    ∃ front, bytes = front ++ rest ∧ ∀ more, read (front ++ more) = .ok (a, more) := by
  obtain ⟨front, rfl, hG⟩ := (h _ _ _).mp hread
  exact ⟨front, rfl, fun more => (h _ _ _).mpr ⟨front, rfl, hG⟩⟩

/-- **One reading after the other.** -/
theorem Reads.bind {H : α → β → List UInt8 → Prop} (h : Reads read G) (hnext : ∀ a, Reads (next a) (H a)) :
    Reads (read >>= next) fun b bytes =>
      ∃ a front back, bytes = front ++ back ∧ G a front ∧ H a b back := by
  intro bytes b rest
  rw [bind_eq_ok_iff]
  constructor
  · rintro ⟨a, middle, ha, hb⟩
    obtain ⟨front, rfl, hG⟩ := (h _ _ _).mp ha
    obtain ⟨back, rfl, hH⟩ := (hnext a _ _ _).mp hb
    exact ⟨front ++ back, by rw [List.append_assoc], a, front, back, rfl, hG, hH⟩
  · rintro ⟨_, rfl, a, front, back, rfl, hG, hH⟩
    refine ⟨a, back ++ rest, (h _ _ _).mpr ⟨front, by rw [List.append_assoc], hG⟩, ?_⟩
    exact (hnext a _ _ _).mpr ⟨back, rfl, hH⟩

theorem Reads.map {f : α → β} (h : Reads read G) :
    Reads (do return f (← read)) fun b bytes => ∃ a, b = f a ∧ G a bytes := by
  refine (h.bind fun a => reads_pure (f a)).congr fun b bytes => ?_
  constructor
  · rintro ⟨a, front, _, rfl, hG, rfl, rfl⟩
    exact ⟨a, rfl, by rwa [List.append_nil]⟩
  · rintro ⟨a, rfl, hG⟩
    exact ⟨a, bytes, [], by rw [List.append_nil], hG, rfl, rfl⟩

/-- Looking at the bytes that are left takes nothing off. -/
theorem Reads.getBind {H : β → List UInt8 → Prop} {next : List UInt8 → Reading β}
    (h : ∀ here, Reads (next here) H) : Reads (get >>= next) H :=
  fun bytes b rest => h bytes bytes b rest

/-! ### rows -/

/-- The bytes of things one after the other. -/
def Row (G : α → List UInt8 → Prop) : List α → List UInt8 → Prop
  | [], bytes => bytes = []
  | a :: as, bytes => ∃ front back, bytes = front ++ back ∧ G a front ∧ Row G as back

theorem Reads.times (h : Reads read G) (n : Nat) :
    Reads (times read n) fun as bytes => as.length = n ∧ Row G as bytes := by
  induction n with
  | zero =>
    refine (reads_pure []).congr fun as bytes => ?_
    constructor
    · rintro ⟨rfl, rfl⟩
      exact ⟨rfl, rfl⟩
    · rintro ⟨hlen, hrow⟩
      obtain rfl : as = [] := List.eq_nil_of_length_eq_zero hlen
      exact ⟨rfl, hrow⟩
  | succ n ih =>
    refine (h.bind fun a => ih.map).congr fun as bytes => ?_
    constructor
    · rintro ⟨a, front, back, rfl, hG, as, rfl, hlen, hrow⟩
      exact ⟨by simp [hlen], front, back, rfl, hG, hrow⟩
    · rintro ⟨hlen, hrow⟩
      cases as with
      | nil => cases hlen
      | cons a as =>
        obtain ⟨front, back, rfl, hG, hrow⟩ := hrow
        exact ⟨a, front, back, rfl, hG, as, rfl, by simpa using hlen, hrow⟩

end Combine

/-! ### numbers -/

theorem reads_byte : Reads byte fun b bytes => bytes = [b] := by
  intro bytes b rest
  cases bytes with
  | nil => simp [byte]
  | cons c tail => simp [byte]

theorem bigEndian_ofNat (high low : UInt8) :
    bigEndian (UInt16.ofNat (high.toNat * 256 + low.toNat)) = [high, low] := by
  have hhigh : high.toNat < 256 := high.toNat_lt
  have hlow : low.toNat < 256 := low.toNat_lt
  have hn : (UInt16.ofNat (high.toNat * 256 + low.toNat)).toNat = high.toNat * 256 + low.toNat := by
    rw [UInt16.toNat_ofNat']
    omega
  have hdiv : (high.toNat * 256 + low.toNat) / 256 = high.toNat := by omega
  have hmod : (high.toNat * 256 + low.toNat) % 256 = low.toNat := by omega
  rw [bigEndian, hn, hdiv, hmod, UInt8.ofNat_toNat, UInt8.ofNat_toNat]

theorem ofNat_bigEndian (n : UInt16) :
    UInt16.ofNat ((UInt8.ofNat (n.toNat / 256)).toNat * 256 + (UInt8.ofNat (n.toNat % 256)).toNat) = n := by
  have hn : n.toNat < 65536 := n.toNat_lt
  have hhigh : (UInt8.ofNat (n.toNat / 256)).toNat = n.toNat / 256 := by
    rw [UInt8.toNat_ofNat']
    omega
  have hlow : (UInt8.ofNat (n.toNat % 256)).toNat = n.toNat % 256 := by
    rw [UInt8.toNat_ofNat']
    omega
  have hsum : n.toNat / 256 * 256 + n.toNat % 256 = n.toNat := by omega
  rw [hhigh, hlow, hsum, UInt16.ofNat_toNat]

theorem reads_u2 : Reads u2 fun n bytes => bytes = bigEndian n := by
  intro bytes n rest
  constructor
  · intro h
    match bytes, h with
    | high :: low :: tail, h =>
      cases h
      exact ⟨_, rfl, (bigEndian_ofNat high low).symm⟩
  · rintro ⟨_, rfl, rfl⟩
    show Except.ok (UInt16.ofNat _, rest) = _
    rw [ofNat_bigEndian]

/-! ### constants -/

section Pool

variable {pool : ConstantPool}

theorem reads_constant {α : Type} {kind : ConstantKind} {pick : Constant → Option α} :
    Reads (constant pool kind pick) fun a bytes => ∃ c, pick c = some a ∧ Refers pool c bytes := by
  refine (reads_u2.bind (H := fun index a bytes =>
    (pool.get? index.toNat).bind pick = some a ∧ bytes = []) fun index => ?_).congr fun a bytes => ?_
  · cases h : (pool.get? index.toNat).bind pick with
    | none => exact (reads_throw _).congr fun a bytes => by simp
    | some a => exact (reads_pure a).congr fun b bytes => by simp [eq_comm]
  constructor
  · rintro ⟨index, _, _, rfl, rfl, hpick, rfl⟩
    obtain ⟨c, hget, hc⟩ := Option.bind_eq_some_iff.mp hpick
    exact ⟨c, hc, index, by rw [List.append_nil], hget⟩
  · rintro ⟨c, hc, index, rfl, hget⟩
    exact ⟨index, _, [], by rw [List.append_nil], rfl, by rw [hget]; exact hc, rfl⟩

/-- A constant of the kind that `pick` chooses. -/
theorem reads_constant_of {α : Type} {kind : ConstantKind} {pick : Constant → Option α} {wrap : α → Constant}
    (h : ∀ c a, pick c = some a ↔ c = wrap a) :
    Reads (constant pool kind pick) fun a bytes => Refers pool (wrap a) bytes :=
  reads_constant.congr fun a bytes => by simp [h]

theorem reads_utf8 : Reads (utf8 pool) fun s bytes => Refers pool (.utf8 s) bytes :=
  reads_constant_of fun c s => by cases c <;> simp [Constant.utf8?]

theorem reads_integer : Reads (integer pool) fun w bytes => Refers pool (.integer w) bytes :=
  reads_constant_of fun c w => by cases c <;> simp [Constant.integer?]

/-! ### literals -/

/-! The constants that a literal is stored as, type by type. -/

@[simp] theorem stored_byte_iff {v : Int8} {c : Constant} :
    Stored (.byte v) c ↔ ∃ w, c = .integer w ∧ v = w.toInt8 := by
  cases c with
  | integer w => simp [Stored, ← Int8.toInt_inj]
  | _ => simp [Stored]

@[simp] theorem stored_short_iff {v : Int16} {c : Constant} :
    Stored (.short v) c ↔ ∃ w, c = .integer w ∧ v = w.toInt16 := by
  cases c with
  | integer w => simp [Stored, ← Int16.toInt_inj]
  | _ => simp [Stored]

theorem toNat_toUInt16_toUInt32 (w : Int32) : (w.toUInt32.toUInt16.toNat : Int) = w.toInt % 65536 := by
  have hlt : w.toUInt32.toNat < 2 ^ 32 := w.toUInt32.toNat_lt
  have hint : w.toInt = (w.toUInt32.toNat : Int).bmod (2 ^ 32) := BitVec.toInt_eq_toNat_bmod w.toBitVec
  have hmod : w.toInt % 2 ^ 32 = (w.toUInt32.toNat : Int) % 2 ^ 32 := by
    rw [hint]
    exact Int.bmod_emod
  rw [UInt32.toNat_toUInt16]
  omega

@[simp] theorem stored_char_iff {u : UInt16} {c : Constant} :
    Stored (.char u) c ↔ ∃ w, c = .integer w ∧ u = w.toUInt32.toUInt16 := by
  cases c with
  | integer w =>
    have hiff : u = w.toUInt32.toUInt16 ↔ (u.toNat : Int) = w.toInt % 65536 := by
      rw [← toNat_toUInt16_toUInt32, Int.ofNat_inj, UInt16.toNat_inj]
    simp only [Stored, Constant.integer.injEq, exists_eq_left', hiff]
  | _ => simp [Stored]

@[simp] theorem stored_boolean_iff {b : Bool} {c : Constant} :
    Stored (.boolean b) c ↔ ∃ w, c = .integer w ∧ b = (w != 0) := by
  cases c with
  | integer w =>
    have hzero : w.toInt = 0 ↔ w = 0 := by
      rw [← Int32.toInt_inj]
      rfl
    cases b <;> simp [Stored, hzero]
  | _ => simp [Stored]

@[simp] theorem stored_int_iff {v : Int32} {c : Constant} : Stored (.int v) c ↔ c = .integer v := by
  cases c <;> simp [Stored, eq_comm]

@[simp] theorem stored_long_iff {v : Int64} {c : Constant} : Stored (.long v) c ↔ c = .long v := by
  cases c <;> simp [Stored, eq_comm]

@[simp] theorem stored_float_iff {x : UInt32} {c : Constant} : Stored (.float x) c ↔ c = .float x := by
  cases c <;> simp [Stored, eq_comm]

@[simp] theorem stored_double_iff {x : UInt64} {c : Constant} : Stored (.double x) c ↔ c = .double x := by
  cases c <;> simp [Stored, eq_comm]

@[simp] theorem stored_string_iff {s : String} {c : Constant} : Stored (.string s) c ↔ c = .utf8 s := by
  cases c <;> simp [Stored, eq_comm]

/-- Constants that are read as `wrap` has them and turned into literals of one type. -/
theorem reads_literal {α : Type} {read : Reading α} {wrap : α → Constant} {f : α → Literal} {t : LiteralType}
    (h : Reads read fun w bytes => Refers pool (wrap w) bytes)
    (hstored : ∀ l c, l.type = t ∧ Stored l c ↔ ∃ w, c = wrap w ∧ l = f w) :
    Reads (do return f (← read)) fun l bytes => l.type = t ∧ ∃ c, Stored l c ∧ Refers pool c bytes := by
  refine h.map.congr fun l bytes => ?_
  constructor
  · rintro ⟨w, hl, hrefers⟩
    obtain ⟨htype, hs⟩ := (hstored l (wrap w)).mpr ⟨w, rfl, hl⟩
    exact ⟨htype, wrap w, hs, hrefers⟩
  · rintro ⟨htype, c, hs, hrefers⟩
    obtain ⟨w, rfl, hl⟩ := (hstored l c).mp ⟨htype, hs⟩
    exact ⟨w, hl, hrefers⟩

theorem reads_baseLiteral (t : BaseType) :
    Reads (baseLiteral pool t) fun l bytes =>
      l.type = .base t ∧ ∃ c, Stored l c ∧ Refers pool c bytes := by
  have hlong : Reads (constant pool .long Constant.long?) fun w bytes => Refers pool (.long w) bytes :=
    reads_constant_of fun c w => by cases c <;> simp [Constant.long?]
  have hfloat : Reads (constant pool .float Constant.float?) fun x bytes => Refers pool (.float x) bytes :=
    reads_constant_of fun c x => by cases c <;> simp [Constant.float?]
  have hdouble : Reads (constant pool .double Constant.double?) fun x bytes =>
      Refers pool (.double x) bytes :=
    reads_constant_of fun c x => by cases c <;> simp [Constant.double?]
  cases t with
  | byte => exact reads_literal reads_integer fun l c => by cases l <;> simp [Literal.type]
  | char => exact reads_literal reads_integer fun l c => by cases l <;> simp [Literal.type]
  | short => exact reads_literal reads_integer fun l c => by cases l <;> simp [Literal.type]
  | boolean => exact reads_literal reads_integer fun l c => by cases l <;> simp [Literal.type]
  | int => exact reads_literal reads_integer fun l c => by cases l <;> simp [Literal.type]
  | long => exact reads_literal hlong fun l c => by cases l <;> simp [Literal.type]
  | float => exact reads_literal hfloat fun l c => by cases l <;> simp [Literal.type]
  | double => exact reads_literal hdouble fun l c => by cases l <;> simp [Literal.type]

end Pool

end ClassMetadata.ClassFile
