import ClassMetadata.Proofs.Enclosing
import ClassMetadata.Proofs.Resolution

/-!
# The type that a tree stands for

`Mirrors` says which type a signature resolves to without a word about how it is found.  The type has the
form of the tree.  The segments of a class path are taken by the paths in front of them: the class of a
segment is registered under the binary name of the path that ends with it, and the type around it is the
type of the path before it.

* `Registry.Mirrors`, `Registry.MirrorsPath`: **the types of trees and of paths with type arguments**;
* `binaryName_append_singleton`: the binary name of a longer path;
* `resolveTree_eq_ok_iff`: **resolution gives the type that mirrors the tree**, and gives one whenever
  there is one.

Resolution goes along a path from its front and carries the name and the type of what is behind it
(`Behind`), while `MirrorsPath` grows a path at its end.  So one direction is proved for an arbitrary rest of
the path, the other for an arbitrary path behind it.
-/

namespace ClassMetadata

/-! ### names of longer paths -/

theorem nestedNames_append_singleton (outer : String) (path : List Segment) (segment : Segment) :
    nestedNames outer (path ++ [segment]) =
      nestedNames outer path ++ [(nestedNames outer path).getLast?.getD outer ++ "$" ++ segment.name] := by
  induction path generalizing outer with
  | nil => rfl
  | cons first rest ih =>
    rw [List.cons_append, nestedNames, ih, nestedNames, List.cons_append]
    congr 3
    cases hrest : nestedNames (outer ++ "$" ++ first.name) rest with
    | nil => rfl
    | cons name names => simp [List.getLast?_cons]

namespace Registry

theorem binaryName_singleton (segment : Segment) : binaryName [segment] = nameInside none segment.name := rfl

/-- A segment adds its name behind the name of the path. -/
theorem binaryName_append_singleton {path : List Segment} (h : path ≠ []) (segment : Segment) :
    binaryName (path ++ [segment]) = nameInside (some (binaryName path)) segment.name := by
  cases path with
  | nil => exact absurd rfl h
  | cons first rest =>
    rw [List.cons_append]
    simp only [binaryName, nameInside, segmentNames, nestedNames_append_singleton]
    cases nestedNames (dotted first.name) rest with
    | nil => rfl
    | cons name names => simp [List.getLast?_cons]

/-! ### types of trees -/

mutual

/-- The type that a signature stands for on behalf of a scope. -/
inductive Mirrors (r : Registry) (scope : Class) : Signature → ResolvedType Class → Prop
  | base (s : BaseType) : Mirrors r scope (.base s) (.primitive s)
  | void : Mirrors r scope .void .void
  | array {s t} : Mirrors r scope s t → Mirrors r scope (.array s) (.array t)
  | typeVariable {name c} : r.DeclaredAt scope name c →
    Mirrors r scope (.typeVariable name) (.typeVariable name c)
  /-- without type arguments only the innermost class counts -/
  | plain {path c} : isParameterized path = false → r.lookup (binaryName path) = some c →
    Mirrors r scope (.classType path) (.classType c)
  | parameterized {path t} : isParameterized path = true → MirrorsPath r scope path t →
    Mirrors r scope (.classType path) t

/-- The type of a path in which some segment has type arguments. -/
inductive MirrorsPath (r : Registry) (scope : Class) : List Segment → ResolvedType Class → Prop
  | first {name c} : r.lookup (binaryName [⟨name, []⟩]) = some c →
    MirrorsPath r scope [⟨name, []⟩] (.classType c)
  | firstWithArguments {name arguments c ts} : arguments ≠ [] →
    r.lookup (binaryName [⟨name, arguments⟩]) = some c → MirrorsArguments r scope arguments ts →
    MirrorsPath r scope [⟨name, arguments⟩] (.parameterized c ts none)
  /-- the type of the path in front owns that of the last segment, which may have no arguments -/
  | later {path owner name arguments c ts} : MirrorsPath r scope path owner →
    r.lookup (binaryName (path ++ [⟨name, arguments⟩])) = some c → MirrorsArguments r scope arguments ts →
    MirrorsPath r scope (path ++ [⟨name, arguments⟩]) (.parameterized c ts (some owner))

inductive MirrorsArgument (r : Registry) (scope : Class) : TypeArgument → ResolvedType Class → Prop
  | unbounded : MirrorsArgument r scope .unbounded (.wildcard [] [])
  | exactly {s t} : Mirrors r scope s t → MirrorsArgument r scope (.exactly s) t
  | upperBound {s t} : Mirrors r scope s t → MirrorsArgument r scope (.upperBound s) (.wildcard [t] [])
  | lowerBound {s t} : Mirrors r scope s t → MirrorsArgument r scope (.lowerBound s) (.wildcard [] [t])

inductive MirrorsArguments (r : Registry) (scope : Class) :
    List TypeArgument → List (ResolvedType Class) → Prop
  | nil : MirrorsArguments r scope [] []
  | cons {argument rest t ts} : MirrorsArgument r scope argument t → MirrorsArguments r scope rest ts →
    MirrorsArguments r scope (argument :: rest) (t :: ts)

end

variable {r : Registry} {scope : Class}

theorem MirrorsPath.ne_nil {path : List Segment} {t : ResolvedType Class}
    (h : r.MirrorsPath scope path t) : path ≠ [] := by
  cases h <;> simp

theorem MirrorsArguments.eq_nil_iff {arguments : List TypeArgument} {ts : List (ResolvedType Class)}
    (h : r.MirrorsArguments scope arguments ts) : ts = [] ↔ arguments = [] := by
  cases h <;> simp

/-! ### a type that mirrors the tree is found -/

theorem segmentType_of_ne_nil {c : Class} {ts : List (ResolvedType Class)} (h : ts ≠ [])
    {owner : Option (ResolvedType Class)} : segmentType c ts owner = .parameterized c ts owner := by
  simp [segmentType, h]

/-- What resolution does at a segment whose class and arguments are found. -/
theorem resolvePath_cons_eq {outer : Option String} {owner : Option (ResolvedType Class)} {name : String}
    {arguments : List TypeArgument} {rest : List Segment} {c : Class} {ts : List (ResolvedType Class)}
    (hlookup : r.lookup (nameInside outer name) = some c)
    (harguments : r.resolveArguments scope arguments = .ok ts) :
    r.resolvePath scope outer owner (⟨name, arguments⟩ :: rest) =
      r.resolvePath scope (some (nameInside outer name)) (some (segmentType c ts owner)) rest := by
  have hfind : r.find (nameInside outer name) = .ok c := find_eq_ok_iff.mpr hlookup
  rw [resolvePath, hfind, harguments]
  rfl

mutual

theorem resolveTree_of_mirrors : ∀ {s : Signature} {t : ResolvedType Class},
    r.Mirrors scope s t → r.resolveTree scope s = .ok t
  | _, _, .base _ => rfl
  | _, _, .void => rfl
  | _, _, .array h => by
    rw [resolveTree, resolveTree_of_mirrors h]
    rfl
  | _, _, .typeVariable h => findVariable_eq_ok_iff.mpr ⟨_, h, rfl⟩
  | _, _, .plain hpath hlookup => by
    have hfind := find_eq_ok_iff.mpr hlookup
    rw [resolveTree, if_neg (by simp [hpath]), hfind]
    rfl
  | _, _, .parameterized hpath h => by
    have hfound := resolvePath_of_mirrors h []
    rw [List.append_nil] at hfound
    rw [resolveTree, if_pos hpath, hfound]
    rfl

/-- Resolution comes to the type of a path, whatever is behind the path. -/
theorem resolvePath_of_mirrors : ∀ {path : List Segment} {t : ResolvedType Class},
    r.MirrorsPath scope path t → ∀ rest,
    r.resolvePath scope none none (path ++ rest) =
      r.resolvePath scope (some (binaryName path)) (some t) rest
  | _, _, .first hlookup, _ => by
    have harguments : r.resolveArguments scope [] = .ok [] := rfl
    rw [binaryName_singleton] at hlookup ⊢
    exact resolvePath_cons_eq hlookup harguments
  | _, _, .firstWithArguments hne hlookup hts, _ => by
    have harguments := resolveArguments_of_mirrors hts
    have hfull := mt hts.eq_nil_iff.mp hne
    rw [binaryName_singleton] at hlookup ⊢
    rw [List.singleton_append, resolvePath_cons_eq hlookup harguments, segmentType_of_ne_nil hfull]
  | _, _, @MirrorsPath.later _ _ path _ name arguments _ _ hpath hlookup hts, rest => by
    have harguments := resolveArguments_of_mirrors hts
    rw [binaryName_append_singleton hpath.ne_nil] at hlookup ⊢
    rw [List.append_assoc, resolvePath_of_mirrors hpath]
    exact resolvePath_cons_eq hlookup harguments

theorem resolveArgument_of_mirrors : ∀ {argument : TypeArgument} {t : ResolvedType Class},
    r.MirrorsArgument scope argument t → r.resolveArgument scope argument = .ok t
  | _, _, .unbounded => rfl
  | _, _, .exactly h => resolveTree_of_mirrors h
  | _, _, .upperBound h => by
    rw [resolveArgument, resolveTree_of_mirrors h]
    rfl
  | _, _, .lowerBound h => by
    rw [resolveArgument, resolveTree_of_mirrors h]
    rfl

theorem resolveArguments_of_mirrors : ∀ {arguments : List TypeArgument} {ts : List (ResolvedType Class)},
    r.MirrorsArguments scope arguments ts → r.resolveArguments scope arguments = .ok ts
  | _, _, .nil => rfl
  | _, _, .cons h hrest => by
    rw [resolveArguments, resolveArgument_of_mirrors h, resolveArguments_of_mirrors hrest]
    rfl

end

/-! ### what is found mirrors the tree -/

/-- What resolution carries along when a path is behind it: nothing at the front, then the name and the
type of the path. -/
inductive Behind (r : Registry) (scope : Class) :
    List Segment → Option String → Option (ResolvedType Class) → Prop
  | nothing : Behind r scope [] none none
  | path {path t} : r.MirrorsPath scope path t → Behind r scope path (some (binaryName path)) (some t)

/-- One segment more. -/
theorem Behind.step {path : List Segment} {outer : Option String} {owner : Option (ResolvedType Class)}
    {name : String} {arguments : List TypeArgument} {c : Class} {ts : List (ResolvedType Class)}
    (h : r.Behind scope path outer owner) (hlookup : r.lookup (nameInside outer name) = some c)
    (hts : r.MirrorsArguments scope arguments ts) :
    r.Behind scope (path ++ [⟨name, arguments⟩]) (some (nameInside outer name))
      (some (segmentType c ts owner)) := by
  cases h with
  | nothing =>
    have hpath : r.MirrorsPath scope [⟨name, arguments⟩] (segmentType c ts none) := by
      cases hts with
      | nil => exact .first hlookup
      | cons h hrest => exact .firstWithArguments (by simp) hlookup (.cons h hrest)
    exact .path hpath
  | @path _ t hpath =>
    have hname := binaryName_append_singleton hpath.ne_nil ⟨name, arguments⟩
    rw [← hname] at hlookup ⊢
    exact .path (.later hpath hlookup hts)

mutual

theorem mirrors_of_resolveTree : ∀ (s : Signature) {t : ResolvedType Class},
    r.resolveTree scope s = .ok t → r.Mirrors scope s t
  | .base s, t, h => by
    cases h
    exact .base s
  | .void, t, h => by
    cases h
    exact .void
  | .array component, t, h => by
    obtain ⟨u, hu, h⟩ := bind_eq_ok.mp h
    cases h
    exact .array (mirrors_of_resolveTree component hu)
  | .typeVariable name, t, h => by
    obtain ⟨c, hc, rfl⟩ := findVariable_eq_ok_iff.mp h
    exact .typeVariable hc
  | .classType path, t, h => by
    rw [resolveTree] at h
    by_cases hpath : isParameterized path
    · rw [if_pos hpath] at h
      exact .parameterized hpath (mirrorsPath_of_resolvePath path .nothing h)
    · rw [if_neg hpath] at h
      obtain ⟨c, hc, h⟩ := bind_eq_ok.mp h
      cases h
      exact .plain (by simpa using hpath) (find_eq_ok_iff.mp hc)

theorem mirrorsPath_of_resolvePath : ∀ (rest : List Segment) {path : List Segment} {outer : Option String}
    {owner : Option (ResolvedType Class)} {t : ResolvedType Class},
    r.Behind scope path outer owner → r.resolvePath scope outer owner rest = .ok t →
    r.MirrorsPath scope (path ++ rest) t
  | [], path, _, _, t, hbehind, h => by
    cases hbehind with
    | nothing => cases h
    | path hpath =>
      cases h
      rwa [List.append_nil]
  | ⟨name, arguments⟩ :: rest, path, _, _, t, hbehind, h => by
    obtain ⟨c, ts, hlookup, hts, h⟩ := resolvePath_cons_eq_ok h
    have hstep := hbehind.step hlookup (mirrorsArguments_of_resolveArguments arguments hts)
    have hrest := mirrorsPath_of_resolvePath rest hstep h
    rwa [List.append_assoc] at hrest

theorem mirrorsArgument_of_resolveArgument : ∀ (argument : TypeArgument) {t : ResolvedType Class},
    r.resolveArgument scope argument = .ok t → r.MirrorsArgument scope argument t
  | .unbounded, t, h => by
    cases h
    exact .unbounded
  | .exactly s, t, h => .exactly (mirrors_of_resolveTree s h)
  | .upperBound s, t, h => by
    obtain ⟨u, hu, h⟩ := bind_eq_ok.mp h
    cases h
    exact .upperBound (mirrors_of_resolveTree s hu)
  | .lowerBound s, t, h => by
    obtain ⟨u, hu, h⟩ := bind_eq_ok.mp h
    cases h
    exact .lowerBound (mirrors_of_resolveTree s hu)

theorem mirrorsArguments_of_resolveArguments : ∀ (arguments : List TypeArgument)
    {ts : List (ResolvedType Class)},
    r.resolveArguments scope arguments = .ok ts → r.MirrorsArguments scope arguments ts
  | [], ts, h => by
    cases h
    exact .nil
  | argument :: rest, ts, h => by
    obtain ⟨t, ht, h⟩ := bind_eq_ok.mp h
    obtain ⟨us, hus, h⟩ := bind_eq_ok.mp h
    cases h
    exact .cons (mirrorsArgument_of_resolveArgument argument ht)
      (mirrorsArguments_of_resolveArguments rest hus)

end

/-- **Resolution gives the type that mirrors the tree.** -/
theorem resolveTree_eq_ok_iff {s : Signature} {t : ResolvedType Class} :
    r.resolveTree scope s = .ok t ↔ r.Mirrors scope s t :=
  ⟨mirrors_of_resolveTree s, resolveTree_of_mirrors⟩

end Registry

end ClassMetadata
