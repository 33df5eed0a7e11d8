import ClassMetadata.Entries
import Mathlib.Data.List.Basic
import Mathlib.Data.List.Induction
import Mathlib.Data.List.Perm.Subperm

/-!
# Repeated names collapse

Setting the names of a list one after the other leaves every name once: at its first place in the list
and with its last value.  `collapse` says this without a map, and `ofList_eq_collapse` proves the two equal.

* `names_ofList`: the names are those of the list with later repetitions left out;
* `lookup_ofList`: the value of a name is the first one from the end of the list;
* `exists_lookup_iff`, `lookup_erase`: which names have a value, and which are left;
* `filterMap_lookup_names`: entries without repetition are given by their names and values, which is what
  turns the first two into `ofList_eq_collapse`;
* `FoundIn R es fs`: each entry of `es` has one of its name in `fs`, with a value that is `R`; `FoundIn.symm`:
  **if there are as many entries in both, what is found one way is found the other way**.
-/

namespace ClassMetadata.Entries

variable {α : Type}

/-- The names of a list at their first places, each with its last value. -/
def collapse (settings : List (String × α)) : List (String × α) :=
  (names settings).eraseDups.filterMap fun n => (settings.reverse.lookup n).map fun v => (n, v)

/-! ### one more setting -/

theorem names_append (as bs : List (String × α)) : names (as ++ bs) = names as ++ names bs :=
  List.map_append

/-- A new name goes to the end. -/
theorem insert_of_not_mem {name : String} {entries : List (String × α)} (h : name ∉ names entries)
    (value : α) :
    insert name value entries = entries ++ [(name, value)] := by
  induction entries with
  | nil => rfl
  | cons entry rest ih =>
    obtain ⟨n, v⟩ := entry
    obtain ⟨hn, hrest⟩ : name ≠ n ∧ name ∉ names rest := by simpa [names] using h
    rw [insert, if_neg hn, ih hrest, List.cons_append]

theorem ofList_concat (settings : List (String × α)) (name : String) (value : α) :
    ofList (settings ++ [(name, value)]) = insert name value (ofList settings) := by
  simp [ofList, setAll]

/-- **The order of the names.** -/
theorem names_ofList (settings : List (String × α)) :
    names (ofList settings) = (names settings).eraseDups := by
  induction settings using List.reverseRecOn with
  | nil => rfl
  | append_singleton settings setting ih =>
    obtain ⟨name, value⟩ := setting
    rw [ofList_concat, names_insert, ih, names_append, List.eraseDups_append]
    have hnew : (names [(name, value)]).removeAll (names settings)
        = if name ∈ names settings then [] else [name] := by
      by_cases hn : name ∈ names settings
      · simp only [names, List.map_cons, List.map_nil, List.removeAll] at hn ⊢
        simp [hn]
      · simp only [names, List.map_cons, List.map_nil, List.removeAll] at hn ⊢
        simp [hn]
    rw [hnew]
    by_cases hn : name ∈ names settings
    · rw [if_pos (List.mem_eraseDups.mpr hn), if_pos hn, List.eraseDups_nil, List.append_nil]
    · rw [if_neg (fun h => hn (List.mem_eraseDups.mp h)), if_neg hn]
      rfl

/-- **The value of a name.** -/
theorem lookup_ofList (settings : List (String × α)) (n : String) :
    (ofList settings).lookup n = settings.reverse.lookup n := by
  induction settings using List.reverseRecOn with
  | nil => rfl
  | append_singleton settings setting ih =>
    obtain ⟨name, value⟩ := setting
    rw [ofList_concat, lookup_insert, ih, List.reverse_append, List.reverse_singleton,
      List.singleton_append, List.lookup_cons]
    by_cases h : n = name
    · simp [h]
    · have hb : (n == name) = false := by simpa using h
      rw [if_neg h, hb]

/-- Without later repetitions no name comes twice. -/
theorem nodup_eraseDups (ns : List String) : ns.eraseDups.Nodup := by
  have hnodup := nodup_names_ofList (ns.map fun n => (n, ()))
  have hnames : names (ns.map fun n => (n, ())) = ns := by simp [names, Function.comp_def]
  rwa [names_ofList, hnames] at hnodup

/-! ### what is found -/

theorem mem_names_of_mem {es : List (String × α)} {entry : String × α} (h : entry ∈ es) :
    entry.1 ∈ names es :=
  List.mem_map_of_mem h

theorem mem_of_lookup {es : List (String × α)} {name : String} {v : α} (h : es.lookup name = some v) :
    (name, v) ∈ es := by
  obtain ⟨front, back, rfl, -⟩ := List.lookup_eq_some_iff.mp h
  exact List.mem_append_right front List.mem_cons_self

/-- A name has a value if it is one of the names. -/
theorem exists_lookup_iff {es : List (String × α)} {name : String} :
    (∃ v, es.lookup name = some v) ↔ name ∈ names es := by
  constructor
  · rintro ⟨v, hv⟩
    exact mem_names_of_mem (mem_of_lookup hv)
  · intro h
    obtain ⟨entry, hentry, rfl⟩ := List.mem_map.mp h
    cases hv : es.lookup entry.1 with
    | some v => exact ⟨v, rfl⟩
    | none =>
      have hne := List.lookup_eq_none_iff.mp hv entry hentry
      simp at hne

theorem lookup_erase (name n : String) (es : List (String × α)) :
    (erase name es).lookup n = if n = name then none else es.lookup n := by
  induction es with
  | nil => simp [erase]
  | cons entry rest ih =>
    obtain ⟨m, v⟩ := entry
    unfold erase at ih ⊢
    by_cases hm : m = name
    · subst hm
      rw [List.filter_cons_of_neg (by simp), ih, List.lookup_cons]
      by_cases h : n = m
      · rw [if_pos h, if_pos h]
      · rw [if_neg h, if_neg h, beq_eq_false_iff_ne.mpr h]
    · rw [List.filter_cons_of_pos (by simpa using hm), List.lookup_cons, List.lookup_cons, ih]
      by_cases h : n = m
      · subst h
        simp [hm]
      · rw [beq_eq_false_iff_ne.mpr h]

/-! ### entries from names and values -/

/-- An entry is what its name is looked up as. -/
theorem lookup_of_mem {entries : List (String × α)} {name : String} {value : α}
    (hnodup : (names entries).Nodup) (h : (name, value) ∈ entries) : entries.lookup name = some value := by
  obtain ⟨front, back, rfl⟩ := List.append_of_mem h
  refine List.lookup_eq_some_iff.mpr ⟨front, back, rfl, fun entry hentry => ?_⟩
  have hdisjoint := (List.nodup_append.mp (names_append front _ ▸ hnodup)).2.2
  have hne : entry.1 ≠ name :=
    hdisjoint entry.1 (List.mem_map_of_mem hentry) name (by simp [names])
  simpa using hne.symm

/-- Entries without repetition in another order. -/
theorem lookup_perm {es fs : List (String × α)} (hnodup : (names es).Nodup) (h : es.Perm fs) (n : String) :
    es.lookup n = fs.lookup n := by
  have hnodup' : (names fs).Nodup := (h.map Prod.fst).nodup hnodup
  apply Option.ext
  intro v
  constructor
  · intro hv
    exact lookup_of_mem hnodup' (h.mem_iff.mp (mem_of_lookup hv))
  · intro hv
    exact lookup_of_mem hnodup (h.mem_iff.mpr (mem_of_lookup hv))

theorem names_of_forall₂ {β : Type} {R : α → β → Prop} {es : List (String × α)} {fs : List (String × β)}
    (h : List.Forall₂ (fun e f => e.1 = f.1 ∧ R e.2 f.2) es fs) : names es = names fs := by
  induction h with
  | nil => rfl
  | @cons e f es fs hef _ ih =>
    unfold names at ih ⊢
    rw [List.map_cons, List.map_cons, hef.1, ih]

theorem filterMap_lookup_names {entries : List (String × α)} (h : (names entries).Nodup) :
    ((names entries).filterMap fun n => (entries.lookup n).map fun v => (n, v)) = entries := by
  induction entries with
  | nil => rfl
  | cons entry rest ih =>
    obtain ⟨name, value⟩ := entry
    have hnodup : name ∉ names rest ∧ (names rest).Nodup := List.nodup_cons.mp h
    have htail : ((names rest).filterMap fun n => (((name, value) :: rest).lookup n).map fun v => (n, v))
        = (names rest).filterMap fun n => (rest.lookup n).map fun v => (n, v) := by
      apply List.filterMap_congr
      intro n hn
      have hne : (n == name) = false := by
        simpa using fun he : n = name => hnodup.1 (he ▸ hn)
      rw [List.lookup_cons, hne]
    calc ((names ((name, value) :: rest)).filterMap fun n =>
          (((name, value) :: rest).lookup n).map fun v => (n, v))
        = (name, value) ::
            (names rest).filterMap fun n => (((name, value) :: rest).lookup n).map fun v => (n, v) := by
          simp [names]
      _ = (name, value) :: rest := by rw [htail, ih hnodup.2]

/-- **Setting a list of names collapses it.** -/
theorem ofList_eq_collapse (settings : List (String × α)) : ofList settings = collapse settings := by
  have h := filterMap_lookup_names (nodup_names_ofList settings)
  simp only [names_ofList, lookup_ofList] at h
  exact h.symm

/-- Collapsing makes up no entries. -/
theorem mem_of_mem_collapse {settings : List (String × α)} {entry : String × α}
    (h : entry ∈ collapse settings) : entry ∈ settings := by
  obtain ⟨name, -, hentry⟩ := List.mem_filterMap.mp h
  obtain ⟨value, hvalue, rfl⟩ := Option.map_eq_some_iff.mp hentry
  exact List.mem_reverse.mp (mem_of_lookup hvalue)

example : collapse [("a", 1), ("b", 2), ("a", 3)] = [("a", 3), ("b", 2)] := by decide

/-! ### entries found in others -/

/-- Each entry on the left has one of its name on the right, with a value that is `R`. -/
def FoundIn {β : Type} (R : α → β → Prop) (es : List (String × α)) (fs : List (String × β)) : Prop :=
  ∀ entry ∈ es, ∃ w, fs.lookup entry.1 = some w ∧ R entry.2 w

namespace FoundIn

variable {β γ : Type} {R : α → β → Prop} {es : List (String × α)} {fs : List (String × β)}

theorem trans {S : β → γ → Prop} {T : α → γ → Prop} {gs : List (String × γ)} (h : FoundIn R es fs)
    (h' : FoundIn S fs gs) (hT : ∀ entry ∈ es, ∀ w x, R entry.2 w → S w x → T entry.2 x) :
    FoundIn T es gs := by
  intro entry hentry
  obtain ⟨w, hw, hR⟩ := h entry hentry
  obtain ⟨x, hx, hS⟩ := h' _ (mem_of_lookup hw)
  exact ⟨x, hx, hT entry hentry w x hR hS⟩

/-- As many entries on both sides, and no name twice on the left: the names are the same ones. -/
theorem names_perm (h : FoundIn R es fs) (hnodup : (names es).Nodup) (hlength : es.length = fs.length) :
    (names es).Perm (names fs) := by
  have hsubset : names es ⊆ names fs := by
    intro name hname
    obtain ⟨entry, hentry, rfl⟩ := List.mem_map.mp hname
    obtain ⟨w, hw, -⟩ := h entry hentry
    exact exists_lookup_iff.mp ⟨w, hw⟩
  have hlengths : (names fs).length ≤ (names es).length := by
    rw [names, names, List.length_map, List.length_map]
    exact Nat.le_of_eq hlength.symm
  exact (hnodup.subperm hsubset).perm_of_length_le hlengths

theorem symm {S : β → α → Prop} (h : FoundIn R es fs) (hnodup : (names es).Nodup)
    (hlength : es.length = fs.length) (hS : ∀ entry ∈ es, ∀ w, R entry.2 w → S w entry.2) :
    FoundIn S fs es := by
  have hperm := h.names_perm hnodup hlength
  intro entry hentry
  obtain ⟨v, hv⟩ := exists_lookup_iff.mpr (hperm.mem_iff.mpr (mem_names_of_mem hentry))
  have hmem := mem_of_lookup hv
  obtain ⟨w, hw, hR⟩ := h _ hmem
  obtain rfl : w = entry.2 :=
    Option.some.inj (hw.symm.trans (lookup_of_mem (hperm.nodup hnodup) hentry))
  exact ⟨v, hv, hS _ hmem _ hR⟩

end FoundIn

end ClassMetadata.Entries
