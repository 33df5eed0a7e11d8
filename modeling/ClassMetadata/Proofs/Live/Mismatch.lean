import ClassMetadata.Proofs.Live.Contract

/-!
# What a mismatch says

A mismatch tells the type that an element expects and the type that the value shows.  A value shows less than
its type: an array shows the type of its first element, and an enum constant or an annotation the name of its
class alone.  So a value may show the very type that it is refused for.

* `Value.PassesFor v t`: the ways in which `v` shows the text of `t` without being of that type;
  `passesFor_iff`: **there are no other ways**;
* `Class.refuses_of_construct`: the value that a mismatch is about;
* `Class.mismatch_texts_agree_iff`: **the two texts of a mismatch are the same exactly if the value passes for
  the expected type**, and each value that passes for a type comes to such a mismatch.
-/

namespace ClassMetadata

/-! ### texts of types -/

theorem LiteralType.text_inj {s t : LiteralType} : s.text = t.text ↔ s = t := by
  refine ⟨fun h => ?_, congrArg text⟩
  rcases s with (_ | _ | _ | _ | _ | _ | _ | _) | _ <;>
  rcases t with (_ | _ | _ | _ | _ | _ | _ | _) | _ <;>
  simp_all [text, BaseType.keyword]

theorem LiteralType.text_ne_class (t : LiteralType) : t.text ≠ "java.lang.Class" := by
  rcases t with (_ | _ | _ | _ | _ | _ | _ | _) | _ <;> decide

/-- The text of an array ends with a bracket. -/
theorem ne_append_brackets {s : String} (h : s.toList.getLast? ≠ some ']') (component : String) :
    s ≠ component ++ "[]" := by
  rintro rfl
  rw [String.toList_append, List.getLast?_append] at h
  exact h rfl

theorem LiteralType.text_ne_array (t : LiteralType) (component : String) : t.text ≠ component ++ "[]" := by
  apply ne_append_brackets
  rcases t with (_ | _ | _ | _ | _ | _ | _ | _) | _ <;> decide

theorem class_ne_array (component : String) : "java.lang.Class" ≠ component ++ "[]" :=
  ne_append_brackets (by decide) component

/-- The class that the type of an element names, with the kind that the type takes it to be of. -/
def ElementType.namedClass? : ElementType → Option (ClassKind × String)
  | enum name => some (.enum, name)
  | nested name => some (.annotationInterface, name)
  | _ => none

theorem ElementType.text_of_namedClass {t : ElementType} {kind : ClassKind} {name : String}
    (h : t.namedClass? = some (kind, name)) : t.text = name := by
  cases t <;> cases h <;> rfl

namespace Live.Value

/-- The class that an enum constant or an annotation belongs to, with the kind that the value takes it to be
of. -/
def namedClass? : Value Class → Option (ClassKind × String)
  | enumConstant c _ _ => some (.enum, c.name)
  | nested a => some (.annotationInterface, a.type.name)
  | _ => none

theorem describe_of_namedClass {v : Value Class} {kind : ClassKind} {name : String}
    (h : v.namedClass? = some (kind, name)) : v.describe = name := by
  cases v <;> cases h <;> rfl

theorem conforms_iff_of_value_namedClass {v : Value Class} {t : ElementType} {named : ClassKind × String}
    (h : v.namedClass? = some named) : v.conforms t = true ↔ t.namedClass? = some named := by
  cases v <;> cases h <;> cases t <;> simp [conforms, ElementType.namedClass?] <;> exact eq_comm

theorem conforms_iff_of_type_namedClass {v : Value Class} {t : ElementType} {named : ClassKind × String}
    (h : t.namedClass? = some named) : v.conforms t = true ↔ v.namedClass? = some named := by
  cases t <;> cases h <;> cases v <;> simp [conforms, namedClass?]

/-! ### values that show a type that is not theirs -/

/-- A value is described by the text of a type and is not of that type. -/
inductive PassesFor : Value Class → ElementType → Prop
  /-- the class of the value has the text of the type as its name, and the type is none of such a class -/
  | className {v : Value Class} {t : ElementType} {kind : ClassKind} :
    v.namedClass? = some (kind, t.text) → t.namedClass? ≠ some (kind, t.text) → PassesFor v t
  /-- the class of the type has the description of the value as its name, and the value is none of such a
  class -/
  | typeName {v : Value Class} {t : ElementType} {kind : ClassKind} :
    t.namedClass? = some (kind, v.describe) → v.namedClass? ≠ some (kind, v.describe) → PassesFor v t
  /-- the first element of an array passes for the component -/
  | first {v : Value Class} {vs : List (Value Class)} {t : ElementType} :
    PassesFor v t → PassesFor (.array (v :: vs)) (.array t)
  /-- the first element shows and has the type of the component, and one behind it does not have it -/
  | later {v w : Value Class} {vs : List (Value Class)} {t : ElementType} :
    v.describe = t.text → v.conforms t = true → w ∈ vs → w.conforms t = false →
    PassesFor (.array (v :: vs)) (.array t)

theorem PassesFor.describe {v : Value Class} {t : ElementType} (h : v.PassesFor t) :
    v.describe = t.text := by
  induction h with
  | className hv _ => exact describe_of_namedClass hv
  | typeName ht _ => exact (ElementType.text_of_namedClass ht).symm
  | @first v vs t _ ih =>
    show v.describe ++ "[]" = t.text ++ "[]"
    rw [ih]
  | @later v w vs t hv _ _ _ =>
    show v.describe ++ "[]" = t.text ++ "[]"
    rw [hv]

theorem PassesFor.not_conforms {v : Value Class} {t : ElementType} (h : v.PassesFor t) :
    v.conforms t = false := by
  induction h with
  | className hv ht =>
    rw [← Bool.not_eq_true, conforms_iff_of_value_namedClass hv]
    exact ht
  | typeName ht hv =>
    rw [← Bool.not_eq_true, conforms_iff_of_type_namedClass ht]
    exact hv
  | @first v vs t _ ih => rw [conforms, allConform, ih, Bool.false_and]
  | @later v w vs t _ _ hmem hw =>
    rw [conforms, allConform_eq_all, List.all_eq_false]
    exact ⟨w, List.mem_cons_of_mem v hmem, by rw [hw]; exact Bool.false_ne_true⟩

/-- Where a class is named, on either side, the names alone do not make the value conform. -/
theorem passesFor_of_namedClass {v : Value Class} {t : ElementType}
    (hnamed : v.namedClass? ≠ none ∨ t.namedClass? ≠ none) (htext : v.describe = t.text)
    (hconforms : v.conforms t = false) : v.PassesFor t := by
  rw [← Bool.not_eq_true] at hconforms
  rcases hnamed with hv | ht
  · obtain ⟨⟨kind, name⟩, hv⟩ := Option.ne_none_iff_exists'.mp hv
    obtain rfl : name = t.text := (describe_of_namedClass hv).symm.trans htext
    exact .className hv (mt (conforms_iff_of_value_namedClass hv).mpr hconforms)
  · obtain ⟨⟨kind, name⟩, ht⟩ := Option.ne_none_iff_exists'.mp ht
    obtain rfl : name = v.describe := (ElementType.text_of_namedClass ht).symm.trans htext.symm
    exact .typeName ht (mt (conforms_iff_of_type_namedClass ht).mpr hconforms)

theorem exists_describe_array (vs : List (Value Class)) :
    ∃ component, (array vs).describe = component ++ "[]" := by
  cases vs with
  | nil => exact ⟨"", rfl⟩
  | cons v vs => exact ⟨v.describe, rfl⟩

/-- Texts of literals, of class literals and of arrays are told apart, so that only a later element of an
array is left to differ. -/
theorem passesFor_of_describe {v : Value Class} {t : ElementType} (htext : v.describe = t.text)
    (hconforms : v.conforms t = false) : v.PassesFor t := by
  induction t generalizing v with
  | enum name => exact passesFor_of_namedClass (.inr (Option.some_ne_none _)) htext hconforms
  | nested name => exact passesFor_of_namedClass (.inr (Option.some_ne_none _)) htext hconforms
  | literal s =>
    cases v with
    | enumConstant c name i => exact passesFor_of_namedClass (.inl (Option.some_ne_none _)) htext hconforms
    | nested a => exact passesFor_of_namedClass (.inl (Option.some_ne_none _)) htext hconforms
    | literal l =>
      have hne : l.type ≠ s := beq_eq_false_iff_ne.mp hconforms
      exact absurd (LiteralType.text_inj.mp htext) hne
    | classLiteral u => exact absurd htext.symm s.text_ne_class
    | array vs =>
      obtain ⟨component, hdescribe⟩ := exists_describe_array vs
      exact absurd (htext.symm.trans hdescribe) (s.text_ne_array component)
  | classLiteral =>
    cases v with
    | enumConstant c name i => exact passesFor_of_namedClass (.inl (Option.some_ne_none _)) htext hconforms
    | nested a => exact passesFor_of_namedClass (.inl (Option.some_ne_none _)) htext hconforms
    | literal l => exact absurd htext l.type.text_ne_class
    | classLiteral u => cases hconforms
    | array vs =>
      obtain ⟨component, hdescribe⟩ := exists_describe_array vs
      exact absurd (htext.symm.trans hdescribe) (class_ne_array component)
  | array t ih =>
    cases v with
    | enumConstant c name i => exact passesFor_of_namedClass (.inl (Option.some_ne_none _)) htext hconforms
    | nested a => exact passesFor_of_namedClass (.inl (Option.some_ne_none _)) htext hconforms
    | literal l => exact absurd htext (l.type.text_ne_array t.text)
    | classLiteral u => exact absurd htext (class_ne_array t.text)
    | array vs =>
      cases vs with
      | nil => cases hconforms
      | cons v vs =>
        have hfirst : v.describe = t.text := (String.append_left_inj "[]").mp htext
        cases hv : v.conforms t with
        | false => exact .first (ih hfirst hv)
        | true =>
          rw [conforms, allConform, hv, Bool.true_and, allConform_eq_all, List.all_eq_false] at hconforms
          obtain ⟨w, hmem, hw⟩ := hconforms
          exact .later hfirst hv hmem (eq_false_of_ne_true hw)

/-- **A value shows a type that it does not have exactly in these ways.** -/
theorem passesFor_iff {v : Value Class} {t : ElementType} :
    v.PassesFor t ↔ v.describe = t.text ∧ v.conforms t = false := by
  constructor
  · intro h
    exact ⟨h.describe, h.not_conforms⟩
  · rintro ⟨htext, hconforms⟩
    exact passesFor_of_describe htext hconforms

end Live.Value

/-! ### mismatches -/

namespace Class

open Live (Value)

variable {c : Class} {values : List (String × Value Class)}

/-- A value that an annotation is not made for: it was supplied for an element, or is its default, and is not
of its type. -/
structure Refuses (c : Class) (values : List (String × Value Class)) (e : Element Class) (v : Value Class) :
    Prop where
  declared : e ∈ c.elements
  origin : (e.name, v) ∈ values ∨ e.default? = some v
  conforms : v.conforms e.type = false

/-- A filling that fails does so at an element, for the values that are left. -/
theorem fails_of_fill {type : String} {elements : List (Element Class)}
    {supplied done : List (String × Value Class)} {error : AttributeError}
    (h : fill type elements supplied done = .error error) :
    ∃ e ∈ elements, ∃ left, (∀ entry ∈ left, entry ∈ supplied) ∧ e.Fails type left error := by
  induction elements generalizing supplied done with
  | nil => cases h
  | cons e rest ih =>
    cases hv : e.value? supplied with
    | none =>
      have hmissing : e.Fails type supplied (.missingElement type e.name) := .missing hv
      obtain rfl := Except.error.inj ((fill_cons_of_fails hmissing).symm.trans h)
      exact ⟨e, List.mem_cons_self, supplied, fun _ => id, hmissing⟩
    | some v =>
      cases hconforms : v.conforms e.type with
      | false =>
        have hmismatch : e.Fails type supplied (.typeMismatch type e.name e.type.text v.describe) :=
          .mismatch hv hconforms
        obtain rfl := Except.error.inj ((fill_cons_of_fails hmismatch).symm.trans h)
        exact ⟨e, List.mem_cons_self, supplied, fun _ => id, hmismatch⟩
      | true =>
        rw [fill_cons_of_value hv hconforms] at h
        obtain ⟨d, hd, left, hleft, hfails⟩ := ih h
        have hsupplied : ∀ entry ∈ left, entry ∈ supplied := fun entry hentry =>
          List.mem_of_mem_filter (hleft entry hentry)
        exact ⟨d, List.mem_cons_of_mem e hd, left, hsupplied, hfails⟩

/-- A mismatch is about a value that is refused, and gives its texts. -/
theorem refuses_of_construct {type element expected found : String}
    (h : c.construct values = .error (.typeMismatch type element expected found)) :
    ∃ e v, c.Refuses values e v ∧ type = c.name ∧ element = e.name ∧ expected = e.type.text ∧
      found = v.describe := by
  unfold construct at h
  by_cases hkind : c.isAnnotation
  · rw [hkind] at h
    cases hunknown : values.find? fun entry => (c.element? entry.1).isNone with
    | some entry => simp [hunknown] at h
    | none =>
      cases hfill : fill c.name c.elements values [] with
      | ok entries => simp [hunknown, hfill, Except.map] at h
      | error e =>
        obtain rfl : e = .typeMismatch type element expected found := by
          simpa [hunknown, hfill, Except.map] using h
        obtain ⟨e, he, left, hleft, hfails⟩ := fails_of_fill hfill
        cases hfails with
        | @mismatch v hv hconforms =>
          have horigin : (e.name, v) ∈ values ∨ e.default? = some v := by
            rcases Option.or_eq_some_iff.mp hv with hlookup | ⟨-, hdefault⟩
            · exact .inl (hleft _ (Entries.mem_of_lookup hlookup))
            · exact .inr hdefault
          exact ⟨e, v, ⟨he, horigin, hconforms⟩, rfl, rfl, rfl, rfl⟩
  · simp [hkind] at h

/-- An annotation interface with one element and no default for it. -/
def single (name element : String) (t : ElementType) : Class :=
  (named .annotationInterface name).declare element t none

theorem construct_single (name element : String) {t : ElementType} {v : Value Class}
    (h : v.conforms t = false) :
    (single name element t).construct [(element, v)] =
      .error (.typeMismatch name element t.text v.describe) := by
  have hknown : ∀ entry ∈ [(element, v)], entry.1 ∈ (single name element t).elementNames :=
    List.forall_mem_singleton.mpr List.mem_cons_self
  have hvalue : Element.value? ⟨element, t, none⟩ [(element, v)] = some v := by
    simp [Element.value?]
  have hfails : Element.Fails name [(element, v)] ⟨element, t, none⟩
      (.typeMismatch name element t.text v.describe) :=
    .mismatch hvalue h
  rw [construct_of_known rfl hknown]
  show (fill name [⟨element, t, none⟩] [(element, v)] []).map _ = _
  rw [fill_cons_of_fails hfails]
  rfl

/-- **The texts of a mismatch are the same exactly if the refused value passes for the expected type**, and
each value that passes for a type is refused with the same texts by every interface with one element of that
type. -/
theorem mismatch_texts_agree_iff (c : Class) (values : List (String × Value Class)) (v : Value Class)
    (t : ElementType) :
    (∀ type element expected found : String,
      c.construct values = .error (.typeMismatch type element expected found) →
        ∃ e w, c.Refuses values e w ∧ type = c.name ∧ element = e.name ∧ expected = e.type.text ∧
          found = w.describe ∧ (expected = found ↔ w.PassesFor e.type)) ∧
      ((v.describe = t.text → v.conforms t = true) ↔ ¬ v.PassesFor t) ∧
      (v.PassesFor t → ∀ name element : String, (single name element t).construct [(element, v)] =
        .error (.typeMismatch name element t.text t.text)) := by
  refine ⟨?_, ?_, ?_⟩
  · intro type element expected found h
    obtain ⟨e, w, hrefuses, htype, helement, rfl, rfl⟩ := refuses_of_construct h
    refine ⟨e, w, hrefuses, htype, helement, rfl, rfl, ?_⟩
    rw [Value.passesFor_iff, and_iff_left hrefuses.conforms]
    exact eq_comm
  · rw [Value.passesFor_iff, not_and, Bool.not_eq_false]
  · intro h name element
    rw [construct_single name element h.not_conforms, h.describe]

/-- Two constants of one enum and a text between them, and an annotation whose interface has the name of an
enum. -/
theorem two_agreeing_mismatches :
    let kind := Class.named .enum "pkg.Kind"
    let mark : Live.Annotation Class := ⟨.named .annotationInterface "pkg.Kind", []⟩
    let mixed : Value Class :=
      .array [.enumConstant kind "FAST" 0, .literal (.string "FAST"), .enumConstant kind "SLOW" 1]
    let marked := single "pkg.Marked" "value" (.enum "pkg.Kind")
    mixed.PassesFor (.array (.enum "pkg.Kind")) ∧
      (single "pkg.Kinds" "value" (.array (.enum "pkg.Kind"))).construct [("value", mixed)] =
        .error (.typeMismatch "pkg.Kinds" "value" "pkg.Kind[]" "pkg.Kind[]") ∧
      marked.construct [("value", .nested mark)] =
        .error (.typeMismatch "pkg.Marked" "value" "pkg.Kind" "pkg.Kind") ∧
      ∃ e w, marked.Refuses [("value", .nested mark)] e w ∧ w.PassesFor e.type := by
  intro kind mark mixed marked
  have hmixed : mixed.PassesFor (.array (.enum "pkg.Kind")) :=
    .later rfl rfl List.mem_cons_self rfl
  have hrefused : marked.construct [("value", .nested mark)] =
      .error (.typeMismatch "pkg.Marked" "value" "pkg.Kind" "pkg.Kind") := rfl
  obtain ⟨hmismatch, -, hagreeing⟩ :=
    mismatch_texts_agree_iff marked [("value", .nested mark)] mixed (.array (.enum "pkg.Kind"))
  obtain ⟨e, w, hrefuses, -, -, -, -, hagree⟩ := hmismatch _ _ _ _ hrefused
  exact ⟨hmixed, hagreeing hmixed "pkg.Kinds" "value", hrefused, e, w, hrefuses, hagree.mp rfl⟩

/-- A mismatch that expects what it has found: the second element is a text. -/
theorem kinds_expected_and_found :
    let kind := (Class.named .enum "pkg.Kind").withConstants ["FAST"]
    let kinds := single "pkg.Kinds" "value" (.array (.enum "pkg.Kind"))
    let mixed : Value Class := .array [.enumConstant kind "FAST" 0, .literal (.string "FAST")]
    kinds.construct [("value", mixed)] =
        .error (.typeMismatch "pkg.Kinds" "value" "pkg.Kind[]" "pkg.Kind[]") ∧
      mixed.describe = (ElementType.array (.enum "pkg.Kind")).text ∧
      mixed.conforms (.array (.enum "pkg.Kind")) = false :=
  ⟨rfl, rfl, rfl⟩

end Class

end ClassMetadata
