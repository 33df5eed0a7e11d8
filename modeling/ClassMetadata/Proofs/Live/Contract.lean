import ClassMetadata.Proofs.Live.Construction

/-!
# What construction decides

Construction either makes an annotation or names the first thing that is wrong: with the class, then with the
names that are supplied, in the order in which they come, then with the elements, in the order of their
declarations.  `Class.Decides` says so by cuts of the two lists, without the values that the filling uses up.

* `Element.FilledBy`, `Element.Fails`: the entry of an element, or why it gets none; `filled_or_fails`: it is
  one or the other, so a list of elements is filled or has a first one that fails;
* `fill_of_filled`: **elements of different names are filled independently of each other**;
* `construct_decides`: **construction of a class whose elements have different names is as `Decides` says**;
* `value_of_supplied`: if a name is declared more than once its value goes to the first declaration and its
  entry comes from the last one, so **a supplied value is kept if the name is declared once, and gives way to
  a default if not**.
-/

namespace ClassMetadata

/-! ### elements -/

namespace Element

/-- An entry under the name of an element, with its value, which is of its type. -/
structure FilledBy (values : List (String × Live.Value Class)) (e : Element Class)
    (entry : String × Live.Value Class) : Prop where
  name : entry.1 = e.name
  value : e.value? values = some entry.2
  conforms : entry.2.conforms e.type = true

/-- Why an element gets no entry, in an annotation of the class `type`. -/
inductive Fails (type : String) (values : List (String × Live.Value Class)) (e : Element Class) :
    AttributeError → Prop
  | missing : e.value? values = none → Fails type values e (.missingElement type e.name)
  | mismatch {v} : e.value? values = some v → v.conforms e.type = false →
    Fails type values e (.typeMismatch type e.name e.type.text v.describe)

variable {values : List (String × Live.Value Class)}

/-- Elements are filled, or one of them is the first to fail. -/
theorem filled_or_fails (type : String) (values : List (String × Live.Value Class))
    (elements : List (Element Class)) :
    (∃ entries, List.Forall₂ (FilledBy values) elements entries) ∨
      ∃ front e back error entries, elements = front ++ e :: back ∧
        List.Forall₂ (FilledBy values) front entries ∧ e.Fails type values error := by
  induction elements with
  | nil => exact .inl ⟨[], .nil⟩
  | cons e rest ih =>
    cases hv : e.value? values with
    | none => exact .inr ⟨[], e, rest, _, [], rfl, .nil, .missing hv⟩
    | some v =>
      cases hconforms : v.conforms e.type with
      | false => exact .inr ⟨[], e, rest, _, [], rfl, .nil, .mismatch hv hconforms⟩
      | true =>
        have hfilled : FilledBy values e (e.name, v) := ⟨rfl, hv, hconforms⟩
        rcases ih with ⟨entries, hrest⟩ | ⟨front, d, back, error, entries, rfl, hfront, hd⟩
        · exact .inl ⟨_, .cons hfilled hrest⟩
        · exact .inr ⟨e :: front, d, back, error, _, rfl, .cons hfilled hfront, hd⟩

end Element

namespace Class

/-- The names that an annotation interface declares, each as often as it does. -/
def elementNames (c : Class) : List String := c.elements.map Element.name

theorem element?_isNone_iff {c : Class} {name : String} :
    (c.element? name).isNone = true ↔ name ∉ c.elementNames := by
  rw [element?, Option.isNone_iff_eq_none, List.find?_eq_none]
  simp [elementNames]

/-! ### filling -/

variable {type : String} {e : Element Class} {rest : List (Element Class)}
  {values supplied done : List (String × Live.Value Class)}

theorem fill_cons_of_value {v : Live.Value Class} (hv : e.value? supplied = some v)
    (hconforms : v.conforms e.type = true) :
    fill type (e :: rest) supplied done =
      fill type rest (Entries.erase e.name supplied) (Entries.insert e.name v done) := by
  have hvalue : (supplied.lookup e.name).or e.default? = some v := hv
  rw [fill, hvalue]
  exact if_pos hconforms

/-- An element that fails ends the filling. -/
theorem fill_cons_of_fails {error : AttributeError} (h : e.Fails type supplied error) :
    fill type (e :: rest) supplied done = .error error := by
  cases h with
  | missing hv =>
    have hvalue : (supplied.lookup e.name).or e.default? = none := hv
    rw [fill, hvalue]
  | mismatch hv hconforms =>
    have hvalue : (supplied.lookup e.name).or e.default? = some _ := hv
    rw [fill, hvalue]
    exact if_neg (by simp [hconforms])

/-- The supplied values still hold what they held at first for elements that are to come. -/
def StillSupplied (values supplied : List (String × Live.Value Class)) (elements : List (Element Class)) :
    Prop :=
  ∀ e ∈ elements, supplied.lookup e.name = values.lookup e.name

theorem StillSupplied.value? (h : StillSupplied values supplied (e :: rest)) :
    e.value? supplied = e.value? values := by
  rw [Element.value?, Element.value?, h e List.mem_cons_self]

/-- The value of an element is none of the values of elements of other names. -/
theorem StillSupplied.erase (h : StillSupplied values supplied (e :: rest))
    (hdistinct : ∀ d ∈ rest, d.name ≠ e.name) :
    StillSupplied values (Entries.erase e.name supplied) rest := by
  intro d hd
  rw [Entries.lookup_erase, if_neg (hdistinct d hd)]
  exact h d (List.mem_cons_of_mem e hd)

/-- **Elements of different names are filled independently of each other**: those in front get their entries
at the end of what is done, and the values of those behind are still there. -/
theorem fill_of_filled {front : List (Element Class)} {entries : List (String × Live.Value Class)}
    (h : List.Forall₂ (Element.FilledBy values) front entries)
    (hdistinct : ((front ++ rest).map Element.name).Nodup)
    (hsupplied : StillSupplied values supplied (front ++ rest))
    (hdone : ∀ e ∈ front ++ rest, e.name ∉ Entries.names done) :
    ∃ left, StillSupplied values left rest ∧
      fill type (front ++ rest) supplied done = fill type rest left (done ++ entries) := by
  induction h generalizing supplied done with
  | nil => exact ⟨supplied, hsupplied, by rw [List.append_nil, List.nil_append]⟩
  | @cons e entry front entries he _ ih =>
    obtain ⟨name, v⟩ := entry
    obtain ⟨rfl, hv, hconforms⟩ := he
    rw [List.cons_append] at hdistinct hsupplied hdone ⊢
    obtain ⟨hnew, hothers⟩ := List.forall_mem_cons.mp hdone
    rw [List.map_cons, List.nodup_cons] at hdistinct
    have hnames : ∀ d ∈ front ++ rest, d.name ≠ e.name :=
      fun d hd hname => hdistinct.1 (List.mem_map.mpr ⟨d, hd, hname⟩)
    have hdone' : ∀ d ∈ front ++ rest, d.name ∉ Entries.names (done ++ [(e.name, v)]) := by
      intro d hd
      rw [Entries.names_append, List.mem_append]
      rintro (hmem | hmem)
      · exact hothers d hd hmem
      · exact hnames d hd (List.mem_singleton.mp hmem)
    obtain ⟨left, hleft, hfill⟩ := ih hdistinct.2 (hsupplied.erase hnames) hdone'
    refine ⟨left, hleft, ?_⟩
    rw [fill_cons_of_value (hsupplied.value?.trans hv) hconforms, Entries.insert_of_not_mem hnew, hfill,
      List.append_assoc, List.singleton_append]

theorem fill_front {front : List (Element Class)} {entries : List (String × Live.Value Class)}
    (h : List.Forall₂ (Element.FilledBy values) front entries)
    (hdistinct : ((front ++ rest).map Element.name).Nodup) :
    ∃ left, StillSupplied values left rest ∧
      fill type (front ++ rest) values [] = fill type rest left entries := by
  have hnothing : ∀ e ∈ front ++ rest, e.name ∉ Entries.names ([] : List (String × Live.Value Class)) :=
    fun e _ => List.not_mem_nil
  simpa using fill_of_filled h hdistinct (fun _ _ => rfl) hnothing

/-! ### the contract -/

/-- What construction comes to: the class is refused if it is no annotation interface, else the first name
that the class does not declare, else the first element that fails, and otherwise there is an annotation of
that class with one entry for each element, in the order of the declarations. -/
inductive Decides (c : Class) (values : List (String × Live.Value Class)) :
    Except AttributeError (Live.Annotation Class) → Prop
  | otherKind : c.kind ≠ .annotationInterface →
    Decides c values (.error (.notAnAnnotationType c.name))
  | unknown {front name v back} : c.kind = .annotationInterface → values = front ++ (name, v) :: back →
    (∀ entry ∈ front, entry.1 ∈ c.elementNames) → name ∉ c.elementNames →
    Decides c values (.error (.unknownElement c.name name))
  | failing {front e back entries error} : c.kind = .annotationInterface →
    (∀ entry ∈ values, entry.1 ∈ c.elementNames) → c.elements = front ++ e :: back →
    List.Forall₂ (Element.FilledBy values) front entries → e.Fails c.name values error →
    Decides c values (.error error)
  | made {entries} : c.kind = .annotationInterface → (∀ entry ∈ values, entry.1 ∈ c.elementNames) →
    List.Forall₂ (Element.FilledBy values) c.elements entries → Decides c values (.ok ⟨c, entries⟩)

variable {c : Class}

/-- One of the cases always holds. -/
theorem exists_decides (c : Class) (values : List (String × Live.Value Class)) :
    ∃ outcome, c.Decides values outcome := by
  by_cases hkind : c.kind = .annotationInterface
  · by_cases hknown : ∀ entry ∈ values, entry.1 ∈ c.elementNames
    · rcases Element.filled_or_fails c.name values c.elements with
        ⟨entries, hfilled⟩ | ⟨front, e, back, error, entries, hcut, hfront, he⟩
      · exact ⟨_, .made hkind hknown hfilled⟩
      · exact ⟨_, .failing hkind hknown hcut hfront he⟩
    · have hsome : (values.find? fun entry => entry.1 ∉ c.elementNames) ≠ none := by
        simpa [List.find?_eq_none] using hknown
      obtain ⟨⟨name, v⟩, hfind⟩ := Option.ne_none_iff_exists'.mp hsome
      obtain ⟨hname, front, back, hcut, hfront⟩ := List.find?_eq_some_iff_append.mp hfind
      refine ⟨_, .unknown hkind hcut ?_ (by simpa using hname)⟩
      simpa using hfront
  · exact ⟨_, .otherKind hkind⟩

/-- What construction does with names that the class declares. -/
theorem construct_of_known (hkind : c.kind = .annotationInterface)
    (hknown : ∀ entry ∈ values, entry.1 ∈ c.elementNames) :
    c.construct values = (fill c.name c.elements values []).map fun entries => ⟨c, entries⟩ := by
  have hannotation : c.isAnnotation = true := isAnnotation_iff.mpr hkind
  have hfind : (values.find? fun entry => (c.element? entry.1).isNone) = none := by
    rw [List.find?_eq_none]
    intro entry hentry
    rw [element?_isNone_iff]
    exact not_not_intro (hknown entry hentry)
  rw [construct, hannotation, hfind]
  rfl

theorem construct_of_decides (hdistinct : c.elementNames.Nodup)
    {outcome : Except AttributeError (Live.Annotation Class)} (h : c.Decides values outcome) :
    c.construct values = outcome := by
  cases h with
  | otherKind hkind =>
    have hannotation : c.isAnnotation = false := Bool.eq_false_iff.mpr (mt isAnnotation_iff.mp hkind)
    rw [construct, hannotation]
    rfl
  | @unknown front name v back hkind hcut hfront hname =>
    have hannotation : c.isAnnotation = true := isAnnotation_iff.mpr hkind
    have hfind : (values.find? fun entry => (c.element? entry.1).isNone) = some (name, v) := by
      refine List.find?_eq_some_iff_append.mpr ⟨element?_isNone_iff.mpr hname, front, back, hcut, ?_⟩
      intro entry hentry
      have hknown := mt element?_isNone_iff.mp (not_not_intro (hfront entry hentry))
      rwa [Bool.not_eq_true', ← Bool.not_eq_true]
    rw [construct, hannotation, hfind]
    rfl
  | @failing front e back entries error hkind hknown hcut hfront he =>
    rw [construct_of_known hkind hknown]
    rw [elementNames, hcut] at hdistinct
    obtain ⟨left, hleft, hfill⟩ := fill_front hfront hdistinct
    have hfails : e.Fails c.name left error := by
      cases he with
      | missing hv => exact .missing (hleft.value?.trans hv)
      | mismatch hv hconforms => exact .mismatch (hleft.value?.trans hv) hconforms
    rw [hcut, hfill, fill_cons_of_fails hfails]
    rfl
  | @made entries hkind hknown hfilled =>
    rw [construct_of_known hkind hknown]
    rw [elementNames, ← List.append_nil c.elements] at hdistinct
    obtain ⟨left, -, hfill⟩ := fill_front hfilled hdistinct
    rw [List.append_nil] at hfill
    rw [hfill]
    rfl

/-- **Construction of a class whose elements have different names decides its contract.** -/
theorem construct_decides (hdistinct : c.elementNames.Nodup) (values : List (String × Live.Value Class)) :
    ((∃ name, c.construct values = .error (.notAnAnnotationType name)) ↔ c.kind ≠ .annotationInterface) ∧
      ∀ outcome, c.construct values = outcome ↔ c.Decides values outcome := by
  have hdecides : ∀ outcome, c.construct values = outcome ↔ c.Decides values outcome := by
    intro outcome
    constructor
    · intro h
      obtain ⟨decided, hdecided⟩ := exists_decides c values
      obtain rfl : decided = outcome := (construct_of_decides hdistinct hdecided).symm.trans h
      exact hdecided
    · exact construct_of_decides hdistinct
  refine ⟨⟨?_, ?_⟩, hdecides⟩
  · rintro ⟨name, h⟩
    cases (hdecides _).mp h with
    | otherKind hkind => exact hkind
    | failing _ _ _ _ he => cases he
  · intro hkind
    exact ⟨c.name, (hdecides _).mpr (.otherKind hkind)⟩

/-- An interface with a default that is not of its type: it can be used only where the default is not. -/
theorem sized_with_a_bad_default :
    let sized := (Class.named .annotationInterface "pkg.Sized").declare "value" (.literal (.base .int)) none
      |>.declare "unit" (.literal .string) (some (.literal (.int 3)))
    let five : Live.Value Class := .literal (.int 5)
    let em : Live.Value Class := .literal (.string "em")
    sized.elementNames.Nodup ∧
      sized.Decides [("unit", em), ("value", five)] (.ok ⟨sized, [("value", five), ("unit", em)]⟩) ∧
      sized.Decides [("value", five)]
        (.error (.typeMismatch "pkg.Sized" "unit" "java.lang.String" "int")) ∧
      sized.Decides [("unit", em)] (.error (.missingElement "pkg.Sized" "value")) ∧
      sized.Decides [("unit", em), ("size", five), ("scale", five)]
        (.error (.unknownElement "pkg.Sized" "size")) := by
  intro sized five em
  have hdistinct : sized.elementNames.Nodup := by decide
  exact ⟨hdistinct, ((construct_decides hdistinct _).2 _).mp rfl,
    ((construct_decides hdistinct _).2 _).mp rfl, ((construct_decides hdistinct _).2 _).mp rfl,
    ((construct_decides hdistinct _).2 _).mp rfl⟩

/-! ### repeated names -/

/-- A name that is not declared any more keeps the value that it has. -/
theorem lookup_fill_of_not_declared {elements : List (Element Class)} {name : String}
    {entries : List (String × Live.Value Class)} (h : fill type elements supplied done = .ok entries)
    (hname : ∀ e ∈ elements, e.name ≠ name) : entries.lookup name = done.lookup name := by
  induction elements generalizing supplied done with
  | nil =>
    obtain rfl : done = entries := Except.ok.inj h
    rfl
  | cons e rest ih =>
    obtain ⟨he, hrest⟩ := List.forall_mem_cons.mp hname
    obtain ⟨v, -, -, hfill⟩ := fill_cons_eq_ok h
    rw [ih hfill hrest, Entries.lookup_insert, if_neg (Ne.symm he)]

/-- The last declaration of a name decides its entry.  If there are earlier ones, the supplied value is used
up by the first of them. -/
theorem lookup_fill {front back : List (Element Class)} {entries : List (String × Live.Value Class)}
    (h : fill type (front ++ e :: back) supplied done = .ok entries)
    (hlast : ∀ later ∈ back, later.name ≠ e.name) :
    entries.lookup e.name =
      if ∃ earlier ∈ front, earlier.name = e.name then e.default? else e.value? supplied := by
  induction front generalizing supplied done with
  | nil =>
    obtain ⟨v, hv, -, hfill⟩ := fill_cons_eq_ok h
    rw [lookup_fill_of_not_declared hfill hlast, Entries.lookup_insert, if_pos rfl, if_neg (by simp), hv]
  | cons d front ih =>
    obtain ⟨v, -, -, hfill⟩ := fill_cons_eq_ok h
    rw [ih hfill]
    by_cases hearlier : ∃ earlier ∈ front, earlier.name = e.name
    · obtain ⟨earlier, hmem, hname⟩ := hearlier
      rw [if_pos ⟨earlier, hmem, hname⟩, if_pos ⟨earlier, List.mem_cons_of_mem d hmem, hname⟩]
    · rw [if_neg hearlier, Element.value?, Entries.lookup_erase]
      by_cases hd : d.name = e.name
      · rw [if_pos hd.symm, if_pos ⟨d, List.mem_cons_self, hd⟩, Option.none_or]
      · have hnone : ¬ ∃ earlier ∈ d :: front, earlier.name = e.name := by
          simpa [hd] using hearlier
        rw [if_neg (Ne.symm hd), if_neg hnone]
        rfl

/-- Names that are not refused are declared. -/
theorem declared_of_construct {a : Live.Annotation Class} (h : c.construct values = .ok a) :
    ∀ entry ∈ values, entry.1 ∈ c.elementNames := by
  obtain ⟨hkind, -, -⟩ := construct_eq_ok h
  have hannotation : c.isAnnotation = true := isAnnotation_iff.mpr hkind
  rw [construct, hannotation] at h
  cases hfind : values.find? fun entry => (c.element? entry.1).isNone with
  | some entry => simp [hfind] at h
  | none =>
    rw [List.find?_eq_none] at hfind
    intro entry hentry
    exact not_not.mp (mt element?_isNone_iff.mpr (hfind entry hentry))

/-- The last element of a name. -/
def lastElement? (c : Class) (name : String) : Option (Element Class) :=
  c.elements.reverse.find? fun e => e.name == name

/-- The last element of a name is the only one if the name is declared once. -/
theorem lastElement?_of_cut {front back : List (Element Class)} (hcut : c.elements = front ++ e :: back)
    (hlast : ∀ later ∈ back, later.name ≠ e.name) :
    c.lastElement? e.name = some e ∧
      (c.elementNames.count e.name = 1 ↔ ¬ ∃ earlier ∈ front, earlier.name = e.name) := by
  constructor
  · refine List.find?_eq_some_iff_append.mpr ⟨beq_self_eq_true _, back.reverse, front.reverse, ?_, ?_⟩
    · rw [hcut, List.reverse_append, List.reverse_cons, List.append_assoc, List.singleton_append]
    · intro later hlater
      simpa using hlast later (List.mem_reverse.mp hlater)
  · have hback : (back.map Element.name).count e.name = 0 := by
      rw [List.count_eq_zero]
      intro hmem
      obtain ⟨later, hlater, hname⟩ := List.mem_map.mp hmem
      exact hlast later hlater hname
    rw [elementNames, hcut, List.map_append, List.map_cons, List.count_append, List.count_cons_self, hback,
      Nat.zero_add, Nat.add_eq_right, List.count_eq_zero, List.mem_map]

/-- **What becomes of a supplied value**: it is kept if its name is declared once, and otherwise the default
of the last declaration takes its place. -/
theorem value_of_supplied {a : Live.Annotation Class} (hvalues : (Entries.names values).Nodup)
    (h : c.construct values = .ok a) {name : String} {v : Live.Value Class} (hv : (name, v) ∈ values) :
    (a.get? name).isSome = true ∧
      a.get? name =
        if c.elementNames.count name = 1 then some v else (c.lastElement? name).bind Element.default? := by
  obtain ⟨-, htype, hfill⟩ := construct_eq_ok h
  have hentry : name ∈ Entries.names a.entries := by
    rw [(sound_of_construct h).names, htype, List.mem_eraseDups]
    exact declared_of_construct h _ hv
  obtain ⟨w, hw⟩ := Entries.exists_lookup_iff.mpr hentry
  obtain ⟨front, e, back, hcut, rfl, hlast, -⟩ := declaration_of_construct h (Entries.mem_of_lookup hw)
  obtain ⟨hfound, honce⟩ := lastElement?_of_cut hcut hlast
  rw [hcut] at hfill
  have hget := lookup_fill hfill hlast
  refine ⟨Option.isSome_iff_exists.mpr ⟨w, hw⟩, ?_⟩
  rw [Live.Annotation.get?, hget, hfound, Option.bind_some]
  by_cases hearlier : ∃ earlier ∈ front, earlier.name = e.name
  · rw [if_pos hearlier, if_neg (mt honce.mp (not_not_intro hearlier))]
  · rw [if_neg hearlier, if_pos (honce.mpr hearlier), Element.value?, Entries.lookup_of_mem hvalues hv,
      Option.some_or]

/-- One name is declared once, the other twice. -/
theorem width_kept_and_unit_replaced :
    let c := (Class.named .annotationInterface "pkg.Sized").declare "unit" (.literal .string) none
      |>.declare "width" (.literal (.base .int)) none
      |>.declare "unit" (.literal .string) (some (.literal (.string "px")))
    let values : List (String × Live.Value Class) :=
      [("unit", .literal (.string "em")), ("width", .literal (.int 5))]
    ∃ a, (Entries.names values).Nodup ∧ c.construct values = .ok a ∧
      a.get? "width" = some (.literal (.int 5)) ∧ a.get? "unit" = some (.literal (.string "px")) := by
  intro c values
  have hvalues : (Entries.names values).Nodup := by decide
  have hmade : ∃ a, c.construct values = .ok a := ⟨_, rfl⟩
  obtain ⟨a, ha⟩ := hmade
  have hunit := (value_of_supplied hvalues ha List.mem_cons_self).2
  have hwidth := (value_of_supplied hvalues ha (List.mem_cons_of_mem _ List.mem_cons_self)).2
  exact ⟨a, hvalues, ha, hwidth, hunit⟩

/-- A value that is supplied for a name declared twice is lost. -/
theorem supplied_value_lost :
    let c := (Class.named .annotationInterface "p.A").declare "x" (.literal (.base .int)) none
      |>.declare "x" (.literal (.base .int)) (some (.literal (.int 7)))
    ∃ a, c.construct [("x", .literal (.int 1))] = .ok a ∧ a.get? "x" = some (.literal (.int 7)) ∧
      a.get? "x" ≠ some (.literal (.int 1)) := by
  refine ⟨_, rfl, rfl, ?_⟩
  intro h
  have hseven : some (Live.Value.literal (.int 7) : Live.Value Class) = some (.literal (.int 1)) := h
  have hliteral := Live.Value.literal.inj (Option.some.inj hseven)
  exact absurd (Literal.int.inj hliteral) (by decide)

end Class

end ClassMetadata
