import ClassMetadata.Resolution
import Mathlib.Data.List.Perm.Subperm

/-!
# Where a type variable is declared

A type variable is looked for in the scope and then in the classes around it, outwards.  The classes come
from registered data, so the way outwards may end at a name that is not registered or come back to a name
that it has passed.

* `Leads r c inner d`: the classes `inner` lie on the way from `c` outwards to `d`, `c` the first of them;
* `length_le_size_of_leads`: a way without repeated names passes at most as many classes as are registered,
  since all of them but the first are;
* `DeclaredAt r scope name c`: `c` is the first class on the way that declares the variable;
* `findVariable_eq_ok_iff`, `findVariable_eq_error_iff`: **the search finds that class, and fails exactly if
  there is none**.
-/

namespace ClassMetadata.Registry

/-! ### the way outwards -/

/-- From `c` one comes through the classes `inner`, each inside the next one, to the class around them. -/
inductive Leads (r : Registry) : Class → List Class → Class → Prop
  | here (c : Class) : Leads r c [] c
  | outwards {c outer d : Class} {inner : List Class} :
    r.enclosing? c = some outer → Leads r outer inner d → Leads r c (c :: inner) d

/-- The class nearest to the scope, on a way outwards without repeated names, that declares a variable. -/
def DeclaredAt (r : Registry) (scope : Class) (name : String) (c : Class) : Prop :=
  ∃ inner, r.Leads scope inner c ∧ ((inner ++ [c]).map Class.name).Nodup ∧
    (∀ d ∈ inner, d.declares name = false) ∧ c.declares name = true

variable {r : Registry}

theorem name_mem_of_enclosing {c outer : Class} (h : r.enclosing? c = some outer) :
    outer.name ∈ r.classes.map Class.name := by
  obtain ⟨name, -, hlookup⟩ := Option.bind_eq_some_iff.mp h
  have hmem : outer ∈ r.classes := List.mem_of_find?_eq_some hlookup
  exact List.mem_map_of_mem hmem

/-- All classes on the way but the first are registered. -/
theorem names_subset_of_leads {c d : Class} {inner : List Class} (h : r.Leads c inner d) :
    ∀ n ∈ (inner ++ [d]).map Class.name, n = c.name ∨ n ∈ r.classes.map Class.name := by
  induction h with
  | here c =>
    intro n hn
    exact .inl (List.mem_singleton.mp hn)
  | @outwards c outer d inner houter _ ih =>
    intro n hn
    rcases List.mem_cons.mp hn with rfl | hn
    · exact .inl rfl
    · right
      rcases ih n hn with rfl | hregistered
      · exact name_mem_of_enclosing houter
      · exact hregistered

theorem length_le_size_of_leads {c d : Class} {inner : List Class} (h : r.Leads c inner d)
    (hnodup : ((inner ++ [d]).map Class.name).Nodup) : inner.length ≤ r.size := by
  cases h with
  | here => exact Nat.zero_le _
  | @outwards _ outer _ inner houter hrest =>
    obtain ⟨-, hnodup⟩ := List.nodup_cons.mp hnodup
    have hsub : (inner ++ [d]).map Class.name ⊆ r.classes.map Class.name := by
      intro n hn
      rcases names_subset_of_leads hrest n hn with rfl | hregistered
      · exact name_mem_of_enclosing houter
      · exact hregistered
    have hlength := (List.subperm_of_subset hnodup hsub).length_le
    simpa [size] using hlength

/-! ### the search -/

/-- What the search finds is the first class of its kind on the way, and no name has come twice. -/
theorem leads_of_find?_chainFrom {p : Class → Bool} {n : Nat} {seen : List String} {c d : Class}
    (h : (r.chainFrom n seen c).find? p = some d) :
    ∃ inner, r.Leads c inner d ∧ ((inner ++ [d]).map Class.name).Nodup ∧
      (∀ e ∈ inner ++ [d], e.name ∉ seen) ∧ (∀ e ∈ inner, p e = false) ∧ p d = true := by
  induction n generalizing seen c with
  | zero => cases h
  | succ n ih =>
    rw [chainFrom] at h
    by_cases hseen : c.name ∈ seen
    · rw [if_pos hseen] at h
      cases h
    · rw [if_neg hseen, List.find?_cons] at h
      cases hp : p c with
      | true =>
        rw [hp] at h
        obtain rfl : c = d := Option.some.inj h
        exact ⟨[], .here c, by simp, by simpa using hseen, by simp, hp⟩
      | false =>
        rw [hp] at h
        cases houter : r.enclosing? c with
        | none =>
          rw [houter] at h
          cases h
        | some outer =>
          rw [houter] at h
          obtain ⟨inner, hleads, hnodup, hfresh, hbefore, hd⟩ := ih h
          refine ⟨c :: inner, .outwards houter hleads, ?_, ?_, ?_, hd⟩
          · refine List.nodup_cons.mpr ⟨?_, hnodup⟩
            intro hmem
            obtain ⟨e, he, hname⟩ := List.mem_map.mp hmem
            exact hfresh e he (by simp [hname])
          · intro e he hmem
            rcases List.mem_cons.mp he with rfl | he
            · exact hseen hmem
            · exact hfresh e he (List.mem_cons_of_mem _ hmem)
          · exact List.forall_mem_cons.mpr ⟨hp, hbefore⟩

/-- The first class of its kind on a way without repeated names is found. -/
theorem find?_chainFrom_of_leads {p : Class → Bool} {n : Nat} {seen : List String} {c d : Class}
    {inner : List Class} (h : r.Leads c inner d) (hnodup : ((inner ++ [d]).map Class.name).Nodup)
    (hfresh : ∀ e ∈ inner ++ [d], e.name ∉ seen) (hbefore : ∀ e ∈ inner, p e = false) (hd : p d = true)
    (hlength : inner.length < n) : (r.chainFrom n seen c).find? p = some d := by
  induction h generalizing n seen with
  | here c =>
    obtain ⟨n, rfl⟩ : ∃ m, n = m + 1 := Nat.exists_eq_add_one_of_ne_zero (by omega)
    have hc : c.name ∉ seen := hfresh c (by simp)
    rw [chainFrom, if_neg hc, List.find?_cons, hd]
  | @outwards c outer d inner houter _ ih =>
    obtain ⟨n, rfl⟩ : ∃ m, n = m + 1 := Nat.exists_eq_add_one_of_ne_zero (by omega)
    obtain ⟨hnew, hnodup⟩ := List.nodup_cons.mp hnodup
    obtain ⟨hc, hbefore⟩ := List.forall_mem_cons.mp hbefore
    have hseen : c.name ∉ seen := hfresh c (by simp)
    have hrest : (r.chainFrom n (c.name :: seen) outer).find? p = some d := by
      refine ih hnodup ?_ hbefore hd (by simpa using hlength)
      intro e he hmem
      rcases List.mem_cons.mp hmem with heq | hmem
      · exact hnew (List.mem_map.mpr ⟨e, he, heq⟩)
      · exact hfresh e (List.mem_cons_of_mem _ he) hmem
    rw [chainFrom, if_neg hseen, List.find?_cons, hc, houter]
    exact hrest

theorem find?_enclosingChain_iff {scope c : Class} {name : String} :
    (r.enclosingChain scope).find? (fun d => d.declares name) = some c ↔ r.DeclaredAt scope name c := by
  constructor
  · intro h
    obtain ⟨inner, hleads, hnodup, -, hbefore, hc⟩ := leads_of_find?_chainFrom h
    exact ⟨inner, hleads, hnodup, hbefore, hc⟩
  · rintro ⟨inner, hleads, hnodup, hbefore, hc⟩
    have hlength := length_le_size_of_leads hleads hnodup
    exact find?_chainFrom_of_leads hleads hnodup (by simp) hbefore hc (by omega)

/-! ### type variables -/

/-- **The search finds the nearest declaration.** -/
theorem findVariable_eq_ok_iff {scope : Class} {name : String} {t : ResolvedType Class} :
    r.findVariable scope name = .ok t ↔ ∃ c, r.DeclaredAt scope name c ∧ t = .typeVariable name c := by
  simp only [← find?_enclosingChain_iff]
  unfold findVariable
  cases (r.enclosingChain scope).find? fun d => d.declares name <;> simp [eq_comm]

/-- **It fails only where there is no declaration.** -/
theorem findVariable_eq_error_iff {scope : Class} {name : String} {e : ResolveError} :
    r.findVariable scope name = .error e ↔
      (∀ c, ¬ r.DeclaredAt scope name c) ∧ e = .typeVariableNotFound name scope.name := by
  simp only [← find?_enclosingChain_iff]
  unfold findVariable
  cases (r.enclosingChain scope).find? fun d => d.declares name <;> simp [eq_comm]

end ClassMetadata.Registry
