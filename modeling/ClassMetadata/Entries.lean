/-!
# Named entries in order

A list of name and value pairs used as a map that remembers the order in which names came.  Setting a
name that is there changes its value and not its place.

* `Entries.insert`, `Entries.ofList`: setting one name, and a list of settings in turn;
* `lookup_insert`, `names_insert`, `nodup_names_ofList`: **what setting does to the values and to the
  order of the names**.

A value is found with `List.lookup`.
-/

namespace ClassMetadata.Entries

variable {α : Type}

/-- The names in order. -/
def names (entries : List (String × α)) : List String := entries.map Prod.fst

/-- Sets a name: in its place if it is there, else at the end. -/
def insert (name : String) (value : α) : List (String × α) → List (String × α)
  | [] => [(name, value)]
  | (n, v) :: rest => if name = n then (n, value) :: rest else (n, v) :: insert name value rest

/-- Leaves a name out. -/
def erase (name : String) (entries : List (String × α)) : List (String × α) :=
  entries.filter fun entry => entry.1 != name

/-- Sets the names of a list one after the other. -/
def setAll (entries settings : List (String × α)) : List (String × α) :=
  settings.foldl (fun entries setting => insert setting.1 setting.2 entries) entries

/-- The entries after the settings of a list: a repeated name keeps its first place and its last
value. -/
def ofList (settings : List (String × α)) : List (String × α) := setAll [] settings

theorem lookup_insert (name n : String) (value : α) (entries : List (String × α)) :
    (insert name value entries).lookup n = if n = name then some value else entries.lookup n := by
  induction entries with
  | nil =>
    by_cases h : n = name
    · simp [insert, h]
    · have hb : (n == name) = false := by simpa using h
      simp [insert, List.lookup_cons, h, hb]
  | cons entry rest ih =>
    obtain ⟨m, v⟩ := entry
    unfold insert
    by_cases hm : name = m
    · subst hm
      by_cases h : n = name
      · simp [h]
      · have hb : (n == name) = false := by simpa using h
        simp [List.lookup_cons, h, hb]
    · by_cases h : n = m
      · subst h
        simp [hm, Ne.symm hm]
      · have hb : (n == m) = false := by simpa using h
        simp [hm, List.lookup_cons, hb, ih]

theorem names_insert (name : String) (value : α) (entries : List (String × α)) :
    names (insert name value entries) =
      if name ∈ names entries then names entries else names entries ++ [name] := by
  induction entries with
  | nil => simp [insert, names]
  | cons entry rest ih =>
    obtain ⟨m, v⟩ := entry
    unfold insert
    by_cases hm : name = m
    · simp [hm, names]
    · simp only [hm, if_false, names, List.map_cons, List.mem_cons, false_or] at ih ⊢
      rw [ih]
      by_cases h : name ∈ List.map Prod.fst rest <;> simp only [h, if_true, if_false, List.cons_append]

theorem nodup_names_insert {name : String} {value : α} {entries : List (String × α)}
    (h : (names entries).Nodup) : (names (insert name value entries)).Nodup := by
  rw [names_insert]
  split
  · exact h
  · rename_i hn
    simp [List.nodup_append, h]
    intro a ha hname
    exact hn (hname ▸ ha)

theorem nodup_names_setAll {entries : List (String × α)} (h : (names entries).Nodup)
    (settings : List (String × α)) : (names (setAll entries settings)).Nodup := by
  induction settings generalizing entries with
  | nil => exact h
  | cons setting rest ih => exact ih (nodup_names_insert h)

theorem nodup_names_ofList (settings : List (String × α)) : (names (ofList settings)).Nodup :=
  nodup_names_setAll (by simp [names]) settings

end ClassMetadata.Entries
