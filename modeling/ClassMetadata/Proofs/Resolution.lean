import ClassMetadata.Resolution
import ClassMetadata.Deferred.Shape

/-!
# What a signature resolves to

* `exists_of_resolvePath`: a path with type arguments resolves to a parameterized type, whichever of its
  segments has them;
* `name_of_resolve`: **a signature that resolves to a plain class names it**: its tree is a path without
  type arguments, and the class is the one registered under the binary name of the path.
-/

namespace ClassMetadata

/-- A result of two parts comes from a result of the first. -/
theorem bind_eq_ok {ε α β : Type} {x : Except ε α} {f : α → Except ε β} {b : β} :
    x >>= f = .ok b ↔ ∃ a, x = .ok a ∧ f a = .ok b := by
  cases x <;> simp [Bind.bind, Except.bind]

namespace Registry

variable {r : Registry} {scope : Class}

theorem find_eq_ok_iff {name : String} {c : Class} : r.find name = .ok c ↔ r.lookup name = some c := by
  unfold find
  cases r.lookup name <;> simp

theorem eq_nil_of_resolveArguments {arguments : List TypeArgument}
    (h : r.resolveArguments scope arguments = .ok []) : arguments = [] := by
  cases arguments with
  | nil => rfl
  | cons argument rest =>
    obtain ⟨t, -, ht⟩ := bind_eq_ok.mp h
    obtain ⟨ts, -, hts⟩ := bind_eq_ok.mp ht
    cases hts

/-- What a segment adds to a path that is resolved. -/
theorem resolvePath_cons_eq_ok {outer : Option String} {owner : Option (ResolvedType Class)}
    {segment : Segment} {rest : List Segment} {t : ResolvedType Class}
    (h : r.resolvePath scope outer owner (segment :: rest) = .ok t) :
    ∃ raw arguments, r.lookup (nameInside outer segment.name) = some raw ∧
      r.resolveArguments scope segment.arguments = .ok arguments ∧
      r.resolvePath scope (some (nameInside outer segment.name)) (some (segmentType raw arguments owner)) rest
        = .ok t := by
  obtain ⟨name, _⟩ := segment
  rw [resolvePath] at h
  obtain ⟨raw, hraw, h⟩ := bind_eq_ok.mp h
  obtain ⟨arguments, harguments, h⟩ := bind_eq_ok.mp h
  exact ⟨raw, arguments, find_eq_ok_iff.mp hraw, harguments, h⟩

/-- Behind another type stands that type or a parameterized one. -/
theorem resolvePath_owned {outer : Option String} {owner t : ResolvedType Class} {path : List Segment}
    (h : r.resolvePath scope outer (some owner) path = .ok t) :
    (path = [] ∧ t = owner) ∨ ∃ raw arguments owner', t = .parameterized raw arguments owner' := by
  induction path generalizing outer owner with
  | nil =>
    obtain rfl : owner = t := Except.ok.inj h
    exact .inl ⟨rfl, rfl⟩
  | cons segment rest ih =>
    obtain ⟨raw, arguments, -, -, hrest⟩ := resolvePath_cons_eq_ok h
    right
    rcases ih hrest with ⟨-, rfl⟩ | hparameterized
    · exact ⟨raw, arguments, some owner, rfl⟩
    · exact hparameterized

theorem exists_of_resolvePath {path : List Segment} {t : ResolvedType Class} (hpath : isParameterized path)
    (h : r.resolvePath scope none none path = .ok t) :
    ∃ raw arguments owner, t = .parameterized raw arguments owner := by
  cases path with
  | nil => cases hpath
  | cons segment rest =>
    obtain ⟨raw, arguments, -, harguments, hrest⟩ := resolvePath_cons_eq_ok h
    rcases resolvePath_owned hrest with ⟨rfl, rfl⟩ | hparameterized
    · -- the only segment is the one with the arguments
      have hne : segment.arguments ≠ [] := by simpa [isParameterized] using hpath
      have hresolved : arguments.isEmpty = false := by
        cases arguments with
        | nil => exact absurd (eq_nil_of_resolveArguments harguments) hne
        | cons => rfl
      exact ⟨raw, arguments, none, by simp [segmentType, hresolved]⟩
    · exact hparameterized

theorem resolveTree_eq_classType {t : Signature} {c : Class}
    (h : r.resolveTree scope t = .ok (.classType c)) :
    ∃ path, t = .classType path ∧ r.lookup (binaryName path) = some c := by
  cases t with
  | base t => cases h
  | void => cases h
  | array component =>
    obtain ⟨s, -, hs⟩ := bind_eq_ok.mp h
    cases hs
  | typeVariable name =>
    rw [resolveTree, findVariable] at h
    split at h <;> cases h
  | classType path =>
    rw [resolveTree] at h
    by_cases hpath : isParameterized path
    · rw [if_pos hpath] at h
      obtain ⟨raw, arguments, owner, ht⟩ := exists_of_resolvePath hpath h
      cases ht
    · rw [if_neg hpath] at h
      obtain ⟨d, hd, hc⟩ := bind_eq_ok.mp h
      cases hc
      exact ⟨path, rfl, find_eq_ok_iff.mp hd⟩

/-- A signature that resolves to a plain class is a path, and the class is registered under its name. -/
theorem resolve_eq_classType {signature : String} {c : Class}
    (h : r.resolve signature scope = .ok (.classType c)) :
    ∃ path, Signature.parse signature = .ok (.classType path) ∧ r.lookup (binaryName path) = some c := by
  unfold resolve at h
  cases hparse : Signature.parse signature with
  | error e =>
    rw [hparse] at h
    cases h
  | ok t =>
    rw [hparse] at h
    obtain ⟨path, rfl, hlookup⟩ := resolveTree_eq_classType h
    exact ⟨path, rfl, hlookup⟩

/-- **The class that a signature resolves to has the binary name that the signature gives.** -/
theorem name_of_resolve {signature : String} {c : Class}
    (h : r.resolve signature scope = .ok (.classType c)) : Deferred.binaryNameOf signature = c.name := by
  obtain ⟨path, hparse, hlookup⟩ := resolve_eq_classType h
  rw [Deferred.binaryNameOf, hparse]
  exact (name_of_lookup hlookup).symm

end Registry

end ClassMetadata
