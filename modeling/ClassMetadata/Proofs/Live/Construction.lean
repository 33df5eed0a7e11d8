import ClassMetadata.Live.Construction
import ClassMetadata.Proofs.Entries

/-!
# What a constructed annotation is like

Construction goes over the declarations of a class once and chooses a value for each.  A name may be
declared more than once; the entries then hold it at its first place, with the value that was chosen, and
checked, at its last one.

* `Class.fill_eq_ok`: **the values chosen for the declarations**, from which the entries are put together;
* `Class.declaration_of_construct`: every entry goes back to the last declaration of its name;
* `Live.Annotation.Sound`: an annotation of an annotation type, complete and of the declared types;
* `Class.sound_of_construct`: **whatever the class and the values are, a constructed annotation is
  sound**.
-/

namespace ClassMetadata

/-! ### the choice of values -/

/-- The value for an element: the one supplied under its name, else its default. -/
def Element.value? (e : Element Class) (supplied : List (String × Live.Value Class)) :
    Option (Live.Value Class) :=
  (supplied.lookup e.name).or e.default?

namespace Class

/-- A value may stand for an element: it has its type, and it was supplied or is the default. -/
structure Suits (supplied : List (String × Live.Value Class)) (e : Element Class)
    (v : Live.Value Class) : Prop where
  conforms : v.conforms e.type = true
  origin : (e.name, v) ∈ supplied ∨ e.default? = some v

theorem Suits.mono {supplied supplied' : List (String × Live.Value Class)} {e : Element Class}
    {v : Live.Value Class} (h : Suits supplied e v) (hsub : ∀ entry ∈ supplied, entry ∈ supplied') :
    Suits supplied' e v :=
  ⟨h.conforms, h.origin.imp_left (hsub _)⟩

theorem Suits.of_value {supplied : List (String × Live.Value Class)} {e : Element Class}
    {v : Live.Value Class} (hv : e.value? supplied = some v) (hconforms : v.conforms e.type = true) :
    Suits supplied e v := by
  refine ⟨hconforms, ?_⟩
  rcases Option.or_eq_some_iff.mp hv with hlookup | ⟨-, hdefault⟩
  · exact .inl (Entries.mem_of_lookup hlookup)
  · exact .inr hdefault

/-- What a first declaration adds to the filling of the rest. -/
theorem fill_cons_eq_ok {type : String} {e : Element Class} {rest : List (Element Class)}
    {supplied done entries : List (String × Live.Value Class)}
    (h : fill type (e :: rest) supplied done = .ok entries) :
    ∃ v, e.value? supplied = some v ∧ v.conforms e.type = true ∧
      fill type rest (Entries.erase e.name supplied) (Entries.insert e.name v done) = .ok entries := by
  rw [fill] at h
  rw [Element.value?]
  cases hv : (supplied.lookup e.name).or e.default? with
  | none =>
    rw [hv] at h
    cases h
  | some v =>
    rw [hv] at h
    by_cases hconforms : v.conforms e.type
    · exact ⟨v, rfl, hconforms, by simpa [hconforms] using h⟩
    · simp [hconforms] at h

/-- **A filling is a choice of a suitable value for each declaration**, put into the entries in order. -/
theorem fill_eq_ok {type : String} {elements : List (Element Class)}
    {supplied done entries : List (String × Live.Value Class)}
    (h : fill type elements supplied done = .ok entries) :
    ∃ chosen : List (Element Class × Live.Value Class),
      chosen.map Prod.fst = elements ∧ (∀ c ∈ chosen, Suits supplied c.1 c.2) ∧
        entries = Entries.setAll done (chosen.map fun c => (c.1.name, c.2)) := by
  induction elements generalizing supplied done with
  | nil =>
    obtain rfl : done = entries := Except.ok.inj h
    exact ⟨[], rfl, by simp, rfl⟩
  | cons e rest ih =>
    obtain ⟨v, hv, hconforms, hrest⟩ := fill_cons_eq_ok h
    obtain ⟨chosen, hchosen, hsuits, hentries⟩ := ih hrest
    refine ⟨(e, v) :: chosen, by rw [List.map_cons, hchosen], ?_, hentries⟩
    intro c hc
    rcases List.mem_cons.mp hc with rfl | hc
    · exact .of_value hv hconforms
    · exact (hsuits c hc).mono fun entry hentry => List.mem_of_mem_filter hentry

end Class

/-! ### sound annotations -/

/-- The type of an annotation is an annotation interface, its names are those that the type declares, each
at its first declaration, and every value has the type of the last declaration of its name. -/
structure Live.Annotation.Sound (a : Live.Annotation Class) : Prop where
  kind : a.type.kind = .annotationInterface
  names : Entries.names a.entries = (a.type.elements.map Element.name).eraseDups
  conforms : ∀ name v, (name, v) ∈ a.entries →
    ∃ front e back, a.type.elements = front ++ e :: back ∧ e.name = name ∧
      (∀ later ∈ back, later.name ≠ name) ∧ v.conforms e.type = true

/-- An entry found from the end of a choice belongs to the last declaration of its name. -/
theorem exists_last_of_lookup {chosen : List (Element Class × Live.Value Class)} {name : String}
    {v : Live.Value Class}
    (h : (chosen.map fun c => (c.1.name, c.2)).reverse.lookup name = some v) :
    ∃ front e back, chosen = front ++ (e, v) :: back ∧ e.name = name ∧
      ∀ later ∈ back, later.1.name ≠ name := by
  induction chosen using List.reverseRecOn with
  | nil => cases h
  | append_singleton chosen c ih =>
    obtain ⟨e, w⟩ := c
    rw [List.map_append, List.reverse_append, List.map_singleton, List.reverse_singleton,
      List.singleton_append, List.lookup_cons] at h
    by_cases hname : name = e.name
    · have hbeq : (name == e.name) = true := by simpa using hname
      rw [hbeq] at h
      obtain rfl : w = v := Option.some.inj h
      exact ⟨chosen, e, [], rfl, hname.symm, by simp⟩
    · have hbeq : (name == e.name) = false := by simpa using hname
      rw [hbeq] at h
      obtain ⟨front, e', back, rfl, he', hback⟩ := ih h
      refine ⟨front, e', back ++ [(e, w)], by simp, he', ?_⟩
      intro later hlater
      rcases List.mem_append.mp hlater with hlater | hlater
      · exact hback later hlater
      · obtain rfl := List.mem_singleton.mp hlater
        exact fun heq => hname heq.symm

namespace Class

/-- What construction does once it has not refused its arguments. -/
theorem construct_eq_ok {c : Class} {values : List (String × Live.Value Class)}
    {a : Live.Annotation Class} (h : c.construct values = .ok a) :
    c.kind = .annotationInterface ∧ a.type = c ∧ fill c.name c.elements values [] = .ok a.entries := by
  unfold construct at h
  by_cases hkind : c.isAnnotation
  · have hc : c.kind = .annotationInterface := isAnnotation_iff.mp hkind
    rw [hkind] at h
    cases hunknown : values.find? fun entry => (c.element? entry.1).isNone with
    | some entry => simp [hunknown] at h
    | none =>
      cases hfill : fill c.name c.elements values [] with
      | error e => simp [hunknown, hfill, Except.map] at h
      | ok entries =>
        have ha : ⟨c, entries⟩ = a := by simpa [hunknown, hfill, Except.map] using h
        exact ⟨hc, by rw [← ha], by rw [← ha]⟩
  · simp [hkind] at h

/-- An annotation that was made has the type it was asked for. -/
theorem type_of_construct {c : Class} {values : List (String × Live.Value Class)}
    {a : Live.Annotation Class} (h : c.construct values = .ok a) : a.type = c :=
  (construct_eq_ok h).2.1

/-- The entries of a constructed annotation, as they were chosen. -/
theorem entries_of_construct {c : Class} {values : List (String × Live.Value Class)}
    {a : Live.Annotation Class} (h : c.construct values = .ok a) :
    ∃ chosen : List (Element Class × Live.Value Class),
      chosen.map Prod.fst = c.elements ∧ (∀ choice ∈ chosen, Suits values choice.1 choice.2) ∧
        a.entries = Entries.ofList (chosen.map fun choice => (choice.1.name, choice.2)) :=
  fill_eq_ok (construct_eq_ok h).2.2

/-- **An entry holds the value that was chosen for the last declaration of its name.** -/
theorem declaration_of_construct {c : Class} {values : List (String × Live.Value Class)}
    {a : Live.Annotation Class} (h : c.construct values = .ok a) {name : String} {v : Live.Value Class}
    (hv : (name, v) ∈ a.entries) :
    ∃ front e back, c.elements = front ++ e :: back ∧ e.name = name ∧
      (∀ later ∈ back, later.name ≠ name) ∧ Suits values e v := by
  obtain ⟨chosen, hchosen, hsuits, hentries⟩ := entries_of_construct h
  have hnodup : (Entries.names a.entries).Nodup := by
    rw [hentries]
    exact Entries.nodup_names_ofList _
  have hlookup := Entries.lookup_of_mem hnodup hv
  rw [hentries, Entries.lookup_ofList] at hlookup
  obtain ⟨front, e, back, rfl, hname, hback⟩ := exists_last_of_lookup hlookup
  refine ⟨front.map Prod.fst, e, back.map Prod.fst, ?_, hname, ?_, hsuits (e, v) (by simp)⟩
  · rw [← hchosen, List.map_append, List.map_cons]
  · intro later hlater
    obtain ⟨choice, hchoice, rfl⟩ := List.mem_map.mp hlater
    exact hback choice hchoice

/-- **A constructed annotation is sound.** -/
theorem sound_of_construct {c : Class} {values : List (String × Live.Value Class)}
    {a : Live.Annotation Class} (h : c.construct values = .ok a) : a.Sound := by
  obtain ⟨hkind, rfl, -⟩ := construct_eq_ok h
  obtain ⟨chosen, hchosen, -, hentries⟩ := entries_of_construct h
  refine ⟨hkind, ?_, fun name v hv => ?_⟩
  · rw [hentries, Entries.names_ofList, ← hchosen, Entries.names, List.map_map, List.map_map]
    rfl
  · obtain ⟨front, e, back, hsplit, hname, hback, hsuits⟩ := declaration_of_construct h hv
    exact ⟨front, e, back, hsplit, hname, hback, hsuits.conforms⟩

end Class

end ClassMetadata
