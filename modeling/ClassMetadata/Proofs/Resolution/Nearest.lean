import ClassMetadata.Proofs.Enclosing
import Mathlib.Data.List.Nodup
import Mathlib.Data.Nat.Find

/-!
# The nearest declaration of a type variable

The search for a type variable goes outwards from class to class, remembering the names it has passed, and
gives up at a name that comes again.  Nothing limits it beforehand: it ends because every class but the first
is registered, so that new names run out.

* `Search`: **the search round by round**, as a relation between where it stands and what it comes to;
  `exists_search`: it comes to an end, having looked at no more classes than are left;
* `outward r scope k`: the class `k` steps outwards from the scope;
* `NearestAt r scope name k c`: that class is `c`, the first one to declare the variable, and no name has come
  twice;
* `exists_nearestAt`: if the scope is what is registered under its name, or nothing is, then **whatever
  declares the variable on the way outwards leads to a nearest declaration**: a name that comes again there is
  the same class again, so going round finds nothing new;
* `search_ends_at_nearest`: all of this about `findVariable`.
-/

namespace ClassMetadata.Registry

variable {r : Registry} {scope c d : Class} {name : String} {k : Nat}

/-! ### the search round by round -/

/-- Standing at a class, if there is one, with the names `seen` behind it, the search looks at the classes
`visited` and ends with the class that declares the variable, or with none. -/
inductive Search (r : Registry) (name : String) :
    (seen : List String) → (current : Option Class) → (visited : List Class) → (found : Option Class) → Prop
  | outermost {seen : List String} : Search r name seen none [] none
  | again {seen : List String} {c : Class} : c.name ∈ seen → Search r name seen (some c) [] none
  | declared {seen : List String} {c : Class} :
    c.name ∉ seen → c.declares name = true → Search r name seen (some c) [c] (some c)
  | outwards {seen : List String} {c : Class} {visited : List Class} {found : Option Class} :
    c.name ∉ seen → c.declares name = false →
    Search r name (c.name :: seen) (r.enclosing? c) visited found →
    Search r name seen (some c) (c :: visited) found

section Rounds

variable {seen : List String} {current : Option Class} {visited : List Class} {found : Option Class}

theorem Search.unique (h : r.Search name seen current visited found) {visited' : List Class}
    {found' : Option Class} (h' : r.Search name seen current visited' found') :
    visited' = visited ∧ found' = found := by
  induction h generalizing visited' found' with
  | outermost =>
    cases h'
    exact ⟨rfl, rfl⟩
  | again hseen =>
    cases h' with
    | again => exact ⟨rfl, rfl⟩
    | declared hnew => exact absurd hseen hnew
    | outwards hnew => exact absurd hseen hnew
  | declared hnew hc =>
    cases h' with
    | again hseen => exact absurd hseen hnew
    | declared => exact ⟨rfl, rfl⟩
    | outwards _ hc' => simp [hc] at hc'
  | outwards hnew hc _ ih =>
    cases h' with
    | again hseen => exact absurd hseen hnew
    | declared _ hc' => simp [hc] at hc'
    | outwards _ _ hrest =>
      obtain ⟨rfl, rfl⟩ := ih hrest
      exact ⟨rfl, rfl⟩

/-- **The search ends**, by induction on the names that are left: those seen differ and belong to the scope or
to registered classes, and a class under a new name takes one of the `n` that are left. -/
theorem exists_search (name : String) (n : Nat) (hnodup : seen.Nodup)
    (hseen : seen ⊆ scope.name :: r.classes.map Class.name)
    (hcurrent : ∀ c ∈ current, c.name ∈ scope.name :: r.classes.map Class.name)
    (hn : r.size + 1 ≤ n + seen.length) :
    ∃ visited found, r.Search name seen current visited found ∧ visited.length ≤ n := by
  induction n generalizing seen current with
  | zero =>
    cases current with
    | none => exact ⟨[], none, .outermost, Nat.le_refl 0⟩
    | some c =>
      refine ⟨[], none, .again ?_, Nat.le_refl 0⟩
      by_contra hnew
      -- otherwise there were more names than there are
      have hmore : (c.name :: seen).length ≤ (scope.name :: r.classes.map Class.name).length := by
        have hsub : c.name :: seen ⊆ scope.name :: r.classes.map Class.name :=
          List.cons_subset.mpr ⟨hcurrent c rfl, hseen⟩
        exact (List.subperm_of_subset (List.nodup_cons.mpr ⟨hnew, hnodup⟩) hsub).length_le
      simp only [List.length_cons, List.length_map] at hmore
      unfold size at hn
      omega
  | succ n ih =>
    cases current with
    | none => exact ⟨[], none, .outermost, Nat.zero_le _⟩
    | some c =>
      by_cases hold : c.name ∈ seen
      · exact ⟨[], none, .again hold, Nat.zero_le _⟩
      · cases hc : c.declares name with
        | true => exact ⟨[c], some c, .declared hold hc, Nat.succ_le_succ (Nat.zero_le n)⟩
        | false =>
          have houter : ∀ d ∈ r.enclosing? c, d.name ∈ scope.name :: r.classes.map Class.name :=
            fun d hd => List.mem_cons_of_mem _ (name_mem_of_enclosing hd)
          have hlength : r.size + 1 ≤ n + (c.name :: seen).length := by
            rw [List.length_cons]
            omega
          obtain ⟨visited, found, hsearch, hvisited⟩ :=
            ih (List.nodup_cons.mpr ⟨hold, hnodup⟩) (List.cons_subset.mpr ⟨hcurrent c rfl, hseen⟩) houter
              hlength
          exact ⟨c :: visited, found, .outwards hold hc hsearch, Nat.succ_le_succ hvisited⟩

/-- A chain that is long enough for the classes looked at has in it what the search finds. -/
theorem Search.find?_chainFrom (h : r.Search name seen current visited found) {n : Nat}
    (hn : visited.length ≤ n) :
    (current.elim [] (r.chainFrom n seen)).find? (fun c => c.declares name) = found := by
  induction h generalizing n with
  | outermost => rfl
  | again hseen =>
    cases n with
    | zero => rfl
    | succ n =>
      show (r.chainFrom (n + 1) _ _).find? _ = none
      rw [chainFrom, if_pos hseen, List.find?_nil]
  | declared hnew hc =>
    obtain ⟨n, rfl⟩ : ∃ m, n = m + 1 := Nat.exists_eq_add_one_of_ne_zero (by simp at hn; omega)
    show (r.chainFrom (n + 1) _ _).find? _ = some _
    rw [chainFrom, if_neg hnew, List.find?_cons, hc]
  | outwards hnew hc _ ih =>
    obtain ⟨n, rfl⟩ : ∃ m, n = m + 1 := Nat.exists_eq_add_one_of_ne_zero (by simp at hn; omega)
    show (r.chainFrom (n + 1) _ _).find? _ = _
    rw [chainFrom, if_neg hnew, List.find?_cons, hc]
    exact ih (Nat.le_of_succ_le_succ hn)

theorem findVariable_of_search (h : r.Search name [] (some scope) visited found)
    (hvisited : visited.length ≤ r.size + 1) :
    r.findVariable scope name =
      found.elim (.error (.typeVariableNotFound name scope.name)) fun c => .ok (.typeVariable name c) := by
  have hfound : (r.enclosingChain scope).find? (fun c => c.declares name) = found :=
    h.find?_chainFrom hvisited
  unfold findVariable
  rw [hfound]
  cases found <;> rfl

end Rounds

/-! ### classes by their distance -/

/-- The class so many steps outwards: the scope, the class registered under the name around it, and so on. -/
def outward (r : Registry) (scope : Class) : Nat → Option Class
  | 0 => some scope
  | k + 1 => (r.outward scope k).bind r.enclosing?

/-- The class `k` steps outwards is the first to declare the variable, and no name comes twice up to it. -/
structure NearestAt (r : Registry) (scope : Class) (name : String) (k : Nat) (c : Class) : Prop where
  outward_eq : r.outward scope k = some c
  declares : c.declares name = true
  before : ∀ i d, i < k → r.outward scope i = some d → d.declares name = false
  names_ne : ∀ i j, i < j → j ≤ k →
    (r.outward scope i).map Class.name ≠ (r.outward scope j).map Class.name

theorem outward_add (r : Registry) (c : Class) (i k : Nat) :
    r.outward c (i + k) = (r.outward c i).bind fun d => r.outward d k := by
  induction k with
  | zero => exact (Option.bind_fun_some _).symm
  | succ k ih =>
    show (r.outward c (i + k)).bind r.enclosing? = _
    rw [ih, Option.bind_assoc]
    rfl

theorem outward_succ (r : Registry) (c : Class) (k : Nat) :
    r.outward c (k + 1) = (r.enclosing? c).bind fun d => r.outward d k := by
  rw [Nat.add_comm, outward_add]
  rfl

theorem exists_outward_of_le {i : Nat} (h : r.outward scope k = some c) (hi : i ≤ k) :
    ∃ d, r.outward scope i = some d := by
  obtain ⟨j, rfl⟩ := Nat.exists_eq_add_of_le hi
  rw [outward_add] at h
  obtain ⟨d, hd, -⟩ := Option.bind_eq_some_iff.mp h
  exact ⟨d, hd⟩

/-- On the way to a class stand the classes at the smaller distances. -/
theorem outward_of_leads {inner : List Class} (h : r.Leads scope inner d) {i : Nat}
    (hi : i ≤ inner.length) : r.outward scope i = (inner ++ [d])[i]? := by
  induction h generalizing i with
  | here c =>
    obtain rfl : i = 0 := Nat.le_zero.mp hi
    rfl
  | outwards houter _ ih =>
    cases i with
    | zero => rfl
    | succ i =>
      rw [outward_succ, houter, List.cons_append, List.getElem?_cons_succ]
      exact ih (Nat.le_of_succ_le_succ hi)

theorem exists_leads_of_outward (h : r.outward scope k = some d) :
    ∃ inner, inner.length = k ∧ r.Leads scope inner d := by
  induction k generalizing scope with
  | zero =>
    cases h
    exact ⟨[], rfl, .here _⟩
  | succ k ih =>
    rw [outward_succ] at h
    obtain ⟨outer, houter, h⟩ := Option.bind_eq_some_iff.mp h
    obtain ⟨inner, rfl, hleads⟩ := ih h
    exact ⟨scope :: inner, rfl, .outwards houter hleads⟩

theorem declaredAt_iff_nearestAt : r.DeclaredAt scope name c ↔ ∃ k, r.NearestAt scope name k c := by
  constructor
  · rintro ⟨inner, hleads, hnodup, hbefore, hc⟩
    refine ⟨inner.length, ?_, hc, ?_, ?_⟩
    · simp [outward_of_leads hleads (Nat.le_refl _)]
    · intro i d hi hd
      rw [outward_of_leads hleads (Nat.le_of_lt hi), List.getElem?_append_left hi] at hd
      exact hbefore d (List.mem_of_getElem? hd)
    · intro i j hij hj
      rw [outward_of_leads hleads (by omega), outward_of_leads hleads hj, ← List.getElem?_map,
        ← List.getElem?_map]
      refine List.nodup_iff_getElem?_ne_getElem?.mp hnodup i j hij ?_
      simp only [List.length_map, List.length_append, List.length_singleton]
      omega
  · rintro ⟨k, hk, hc, hbefore, hnames⟩
    obtain ⟨inner, rfl, hleads⟩ := exists_leads_of_outward hk
    refine ⟨inner, hleads, ?_, ?_, hc⟩
    · rw [List.nodup_iff_getElem?_ne_getElem?]
      intro i j hij hj
      simp only [List.length_map, List.length_append, List.length_singleton] at hj
      rw [List.getElem?_map, List.getElem?_map, ← outward_of_leads hleads (by omega),
        ← outward_of_leads hleads (by omega)]
      exact hnames i j hij (by omega)
    · intro d hd
      obtain ⟨i, hi, rfl⟩ := List.getElem_of_mem hd
      refine hbefore i _ hi ?_
      rw [outward_of_leads hleads (Nat.le_of_lt hi), List.getElem?_append_left hi,
        List.getElem?_eq_getElem hi]

/-! ### going round -/

theorem lookup_of_outward_succ (h : r.outward scope (k + 1) = some d) : r.lookup d.name = some d := by
  obtain ⟨c, -, hd⟩ := Option.bind_eq_some_iff.mp h
  obtain ⟨n, -, hlookup⟩ := Option.bind_eq_some_iff.mp hd
  rw [name_of_lookup hlookup, hlookup]

/-- Where the scope is what its name stands for, classes of one name are one class. -/
theorem eq_of_name_eq (hscope : r.lookup scope.name = some scope ∨ r.lookup scope.name = none) {i j : Nat}
    (hij : i < j) (hc : r.outward scope i = some c) (hd : r.outward scope j = some d)
    (hname : c.name = d.name) : c = d := by
  obtain ⟨j, rfl⟩ : ∃ m, j = m + 1 := Nat.exists_eq_add_one_of_ne_zero (by omega)
  have hlookup := lookup_of_outward_succ hd
  rw [← hname] at hlookup
  cases i with
  | zero =>
    obtain rfl : scope = c := Option.some.inj hc
    rcases hscope with h | h
    · exact Option.some.inj (h.symm.trans hlookup)
    · rw [h] at hlookup
      cases hlookup
  | succ i => exact Option.some.inj ((lookup_of_outward_succ hc).symm.trans hlookup)

/-- **A declaration that can be reached is not hidden by a name that comes again**: between two classes of one
name the way goes round, and without the round the same declaration is nearer. -/
theorem exists_nearestAt (hscope : r.lookup scope.name = some scope ∨ r.lookup scope.name = none)
    (h : ∃ k c, r.outward scope k = some c ∧ c.declares name = true) : ∃ k c, r.NearestAt scope name k c := by
  classical
  obtain ⟨c, hk, hc⟩ := Nat.find_spec h
  have hmin : ∀ i d, i < Nat.find h → r.outward scope i = some d → d.declares name ≠ true :=
    fun i d hi hd hdeclares => Nat.find_min h hi ⟨d, hd, hdeclares⟩
  generalize Nat.find h = k at hk hmin
  refine ⟨k, c, hk, hc, fun i d hi hd => Bool.eq_false_iff.mpr (hmin i d hi hd), ?_⟩
  intro i j hij hj hnames
  have hi : i ≤ k := Nat.le_trans (Nat.le_of_lt hij) hj
  obtain ⟨a, ha⟩ := exists_outward_of_le hk hi
  obtain ⟨b, hb⟩ := exists_outward_of_le hk hj
  rw [ha, hb] at hnames
  obtain rfl : a = b := eq_of_name_eq hscope hij ha hb (Option.some.inj hnames)
  have hround : r.outward scope (i + (k - j)) = r.outward scope (j + (k - j)) := by
    rw [outward_add, outward_add, ha, hb]
  have hnearer : r.outward scope (i + (k - j)) = some c := by
    rw [hround, Nat.add_sub_cancel' hj, hk]
  exact hmin _ c (by omega) hnearer hc

/-! ### type variables -/

/-- The search has exactly one run, which looks at no more classes than are registered and the scope, and
comes to what `findVariable` gives. -/
theorem exists_run (r : Registry) (scope : Class) (name : String) :
    ∃ visited found,
      (∀ v f, r.Search name [] (some scope) v f ↔ v = visited ∧ f = found) ∧
        visited.length ≤ r.size + 1 ∧
        r.findVariable scope name =
          found.elim (.error (.typeVariableNotFound name scope.name))
            fun c => .ok (.typeVariable name c) := by
  have hscope : ∀ c ∈ some scope, c.name ∈ scope.name :: r.classes.map Class.name := by
    intro c hc
    obtain rfl : scope = c := Option.mem_some_iff.mp hc
    exact List.mem_cons_self
  obtain ⟨visited, found, hsearch, hvisited⟩ :=
    exists_search name (r.size + 1) List.nodup_nil (List.nil_subset _) hscope (Nat.le_refl _)
  refine ⟨visited, found, fun v f => ⟨hsearch.unique, ?_⟩, hvisited, findVariable_of_search hsearch hvisited⟩
  rintro ⟨rfl, rfl⟩
  exact hsearch

theorem findVariable_ok_iff_nearestAt {t : ResolvedType Class} :
    r.findVariable scope name = .ok t ↔ ∃ k c, r.NearestAt scope name k c ∧ t = .typeVariable name c := by
  rw [findVariable_eq_ok_iff]
  simp only [declaredAt_iff_nearestAt]
  constructor
  · rintro ⟨c, ⟨k, hc⟩, rfl⟩
    exact ⟨k, c, hc, rfl⟩
  · rintro ⟨k, c, hc, rfl⟩
    exact ⟨c, ⟨k, hc⟩, rfl⟩

theorem findVariable_error_iff_nearestAt {e : ResolveError} :
    r.findVariable scope name = .error e ↔
      (∀ k c, ¬ r.NearestAt scope name k c) ∧ e = .typeVariableNotFound name scope.name := by
  rw [findVariable_eq_error_iff]
  simp only [declaredAt_iff_nearestAt, not_exists]
  exact and_congr_left fun _ => forall_comm

theorem findVariable_succeeds_iff (hscope : r.lookup scope.name = some scope ∨ r.lookup scope.name = none) :
    (∃ t, r.findVariable scope name = .ok t) ↔
      ∃ k c, r.outward scope k = some c ∧ c.declares name = true := by
  constructor
  · rintro ⟨t, ht⟩
    obtain ⟨k, c, hc, -⟩ := findVariable_ok_iff_nearestAt.mp ht
    exact ⟨k, c, hc.outward_eq, hc.declares⟩
  · intro h
    obtain ⟨k, c, hc⟩ := exists_nearestAt hscope h
    exact ⟨_, findVariable_ok_iff_nearestAt.mpr ⟨k, c, hc, rfl⟩⟩

/-- The search has exactly one run.  It looks at no more classes than are registered and the scope, and its
outcome is what `findVariable` gives: the variable as the nearest class declares it, or the error with the two
names if there is no such class.  Where the scope is what is registered under its name, or nothing is, there
is one as soon as any class on the way outwards declares the variable. -/
theorem search_ends_at_nearest (r : Registry) (scope : Class) (name : String) :
    (∃ visited found,
      (∀ v f, r.Search name [] (some scope) v f ↔ v = visited ∧ f = found) ∧
        visited.length ≤ r.size + 1 ∧
        r.findVariable scope name =
          found.elim (.error (.typeVariableNotFound name scope.name)) fun c => .ok (.typeVariable name c)) ∧
      (∀ t, r.findVariable scope name = .ok t ↔
        ∃ k c, r.NearestAt scope name k c ∧ t = .typeVariable name c) ∧
      (∀ e, r.findVariable scope name = .error e ↔
        (∀ k c, ¬ r.NearestAt scope name k c) ∧ e = .typeVariableNotFound name scope.name) ∧
      (r.lookup scope.name = some scope ∨ r.lookup scope.name = none →
        ((∃ t, r.findVariable scope name = .ok t) ↔
          ∃ k c, r.outward scope k = some c ∧ c.declares name = true)) :=
  ⟨exists_run r scope name, fun _ => findVariable_ok_iff_nearestAt,
    fun _ => findVariable_error_iff_nearestAt, findVariable_succeeds_iff⟩

/-- Two classes around each other: the variable of the outer one is found, another one is not, and the search
ends. -/
theorem search_ends_in_a_loop :
    let inner := (Class.named .plain "app.A").enclosedBy "app.B"
    let outer := ((Class.named .plain "app.B").withTypeParameters ["T"]).enclosedBy "app.A"
    let r := empty.registerAll [inner, outer]
    r.lookup inner.name = some inner ∧ r.outward inner 5 = some outer ∧
      (∃ t, r.findVariable inner "T" = .ok t) ∧
      ∃ visited found, r.Search "U" [] (some inner) visited found ∧ visited.length ≤ 3 := by
  intro inner outer r
  have hlookup : r.lookup inner.name = some inner := rfl
  have hfive : r.outward inner 5 = some outer := rfl
  obtain ⟨-, -, -, hfound⟩ := search_ends_at_nearest r inner "T"
  obtain ⟨⟨visited, found, hrun, hvisited, -⟩, -⟩ := search_ends_at_nearest r inner "U"
  exact ⟨hlookup, hfive, (hfound (.inl hlookup)).mpr ⟨5, outer, hfive, by decide⟩, visited, found,
    (hrun visited found).mpr ⟨rfl, rfl⟩, hvisited⟩

/-- A scope that has been replaced is passed by name only, so what its successor declares is not seen from
it. -/
example :
    let stale := (Class.named .plain "app.A").enclosedBy "app.B"
    let current := (Class.named .plain "app.A").withTypeParameters ["T"]
    let r := empty.registerAll [current, (Class.named .plain "app.B").enclosedBy "app.A"]
    r.outward stale 2 = some current ∧
      r.findVariable stale "T" = .error (.typeVariableNotFound "T" "app.A") :=
  ⟨rfl, rfl⟩

end ClassMetadata.Registry
