import ClassMetadata.Proofs.Signature.RoundTrip
import ClassMetadata.Proofs.Resolution.Mirrors
import Mathlib.Data.List.Induction

/-!
# The two spellings of an inner class

An inner class is written as a path of segments with dots between them, or as one name in which a `$` stands
for every dot.  Resolution looks up a path without type arguments by its binary name, which is the same for
both, so the choice can be made anew for every such path of a tree.

* `joinedName`: the names of a path as one name; `joinedName_spells`: **it spells the binary name of the
  path**;
* `Signature.flattened`: a tree in which every path without type arguments is one name, inside arrays,
  arguments and bounds as well; a path with arguments keeps its segments, and its arguments are flattened;
* `wellFormed_flattened`: **the flattened tree can be written** if the tree can;
* `resolveTree_flattened`: **it resolves alike**.

The names of the inner segments must be identifiers for this.  A slash in one would become a dot of the
package in the joined name, and would stay a slash in the binary name.
-/

namespace ClassMetadata

/-! ### one name for a path -/

/-- The names of a path with `$` between them. -/
def joinedName (path : List Segment) : String := "$".intercalate (path.map Segment.name)

theorem joinedName_cons_cons (first second : Segment) (rest : List Segment) :
    joinedName (first :: second :: rest) = first.name ++ "$" ++ joinedName (second :: rest) :=
  String.intercalate_cons_of_ne_nil (by simp)

theorem joinedName_append_singleton {path : List Segment} (h : path ≠ []) (s : Segment) :
    joinedName (path ++ [s]) = joinedName path ++ "$" ++ s.name := by
  induction path with
  | nil => exact absurd rfl h
  | cons first rest ih =>
    cases rest with
    | nil => rfl
    | cons second rest =>
      rw [List.cons_append, List.cons_append, joinedName_cons_cons, ← List.cons_append, ih (by simp),
        joinedName_cons_cons]
      simp only [String.append_assoc]

/-- An inner name has no slash that could become a dot. -/
theorem dotted_inside (outer : String) {name : String} (h : IsIdentifier name) :
    dotted (outer ++ "$" ++ name) = dotted outer ++ "$" ++ name := by
  have hname : (name.toList.map fun c => if c = '/' then '.' else c) = name.toList := by
    refine (List.map_congr_left fun c hc => if_neg ?_).trans (List.map_id _)
    rintro rfl
    exact absurd (h.2 _ hc) (by decide)
  rw [← String.toList_inj]
  simp [dotted, hname]

/-- The name of an inner class goes on where the last identifier of the outer one ends. -/
theorem isPathName_inside {outer name : String} (houter : IsPathName outer) (hname : IsIdentifier name) :
    IsPathName (outer ++ "$" ++ name) := by
  obtain ⟨pieces, last, hpieces, hlast, htext⟩ := isPathName_iff.mp houter
  refine isPathName_iff.mpr ⟨pieces, last ++ "$" ++ name, hpieces, ⟨?_, ?_⟩, ?_⟩
  · simp
  · intro c hc
    simp only [String.toList_append, List.mem_append] at hc
    rcases hc with (hc | hc) | hc
    · exact hlast.2 c hc
    · obtain rfl : c = '$' := by simpa using hc
      rfl
    · exact hname.2 c hc
  · simp [htext]

/-- **The joined name is the name of a class, and spells the binary name of the path.** -/
theorem joinedName_spells {path : List Segment} (h : Segment.NamesLegal path) :
    IsPathName (joinedName path) ∧ dotted (joinedName path) = binaryName path := by
  induction path using List.reverseRecOn with
  | nil => exact h.elim
  | append_singleton path s ih =>
    rcases Segment.namesLegal_append_singleton.mp h with ⟨rfl, hname⟩ | ⟨hpath, hname⟩
    · exact ⟨hname, rfl⟩
    · have hne : path ≠ [] := by
        rintro rfl
        exact hpath
      obtain ⟨hlegal, hspells⟩ := ih hpath
      rw [joinedName_append_singleton hne, Registry.binaryName_append_singleton hne]
      refine ⟨isPathName_inside hlegal hname, ?_⟩
      rw [dotted_inside _ hname, hspells]
      rfl

/-! ### trees -/

mutual

/-- A tree in which every path without type arguments is one name. -/
def Signature.flattened : Signature → Signature
  | .base t => .base t
  | .void => .void
  | .classType path =>
    if isParameterized path then .classType (Segment.flattenedAll path)
    else .classType [⟨joinedName path, []⟩]
  | .array component => .array component.flattened
  | .typeVariable name => .typeVariable name

/-- The segments keep their names. -/
def Segment.flattenedAll : List Segment → List Segment
  | [] => []
  | ⟨name, arguments⟩ :: rest => ⟨name, TypeArgument.flattenedAll arguments⟩ :: Segment.flattenedAll rest

def TypeArgument.flattened : TypeArgument → TypeArgument
  | .unbounded => .unbounded
  | .exactly t => .exactly t.flattened
  | .upperBound t => .upperBound t.flattened
  | .lowerBound t => .lowerBound t.flattened

def TypeArgument.flattenedAll : List TypeArgument → List TypeArgument
  | [] => []
  | argument :: rest => argument.flattened :: TypeArgument.flattenedAll rest

end

theorem isEmpty_flattenedAll (arguments : List TypeArgument) :
    (TypeArgument.flattenedAll arguments).isEmpty = arguments.isEmpty := by
  cases arguments <;> rfl

theorem isParameterized_flattenedAll (path : List Segment) :
    isParameterized (Segment.flattenedAll path) = isParameterized path := by
  induction path with
  | nil => rfl
  | cons s rest ih =>
    obtain ⟨name, arguments⟩ := s
    simp only [isParameterized] at ih ⊢
    rw [Segment.flattenedAll, List.any_cons, List.any_cons, ih, isEmpty_flattenedAll]

theorem nestedNames_flattenedAll (outer : String) (path : List Segment) :
    nestedNames outer (Segment.flattenedAll path) = nestedNames outer path := by
  induction path generalizing outer with
  | nil => rfl
  | cons s rest ih =>
    obtain ⟨name, arguments⟩ := s
    rw [Segment.flattenedAll, nestedNames, nestedNames, ih]

theorem binaryName_flattenedAll (path : List Segment) :
    binaryName (Segment.flattenedAll path) = binaryName path := by
  cases path with
  | nil => rfl
  | cons s rest =>
    obtain ⟨name, arguments⟩ := s
    rw [Segment.flattenedAll, binaryName, binaryName, segmentNames, segmentNames, nestedNames_flattenedAll]

/-! ### flattened trees can be written -/

theorem identifiers_flattenedAll {inner : List Segment} (h : ∀ s ∈ inner, IsIdentifier s.name) :
    ∀ s ∈ Segment.flattenedAll inner, IsIdentifier s.name := by
  induction inner with
  | nil => exact h
  | cons s rest ih =>
    obtain ⟨name, arguments⟩ := s
    obtain ⟨hname, hrest⟩ := List.forall_mem_cons.mp h
    exact List.forall_mem_cons.mpr ⟨hname, ih hrest⟩

theorem namesLegal_flattenedAll {path : List Segment} (h : Segment.NamesLegal path) :
    Segment.NamesLegal (Segment.flattenedAll path) := by
  cases path with
  | nil => exact h
  | cons s rest =>
    obtain ⟨name, arguments⟩ := s
    exact ⟨h.1, identifiers_flattenedAll h.2⟩

theorem dimensions_flattened (t : Signature) : t.flattened.dimensions = t.dimensions := by
  induction t using Signature.dimensions.induct with
  | case1 component ih => rw [Signature.flattened, Signature.dimensions, Signature.dimensions, ih]
  | case2 t hne =>
    cases t with
    | array component => exact absurd rfl (hne component)
    | classType path =>
      rw [Signature.flattened]
      split <;> rfl
    | _ => rfl

theorem isReference_flattened {t : Signature} (h : t.IsReference) : t.flattened.IsReference := by
  cases t with
  | classType path =>
    rw [Signature.flattened]
    split <;> trivial
  | _ => exact h

mutual

theorem legal_flattened : ∀ {t : Signature}, t.Legal → t.flattened.Legal
  | .base _, h => h
  | .void, h => h
  | .classType path, h => by
    rw [Signature.flattened]
    split
    · exact ⟨namesLegal_flattenedAll h.1, argumentsLegal_flattenedAll h.2⟩
    · exact ⟨⟨(joinedName_spells h.1).1, nofun⟩, trivial, trivial⟩
  | .array component, h => by
    refine ⟨?_, legal_flattened h.2⟩
    rw [dimensions_flattened]
    exact h.1
  | .typeVariable _, h => h

theorem argumentsLegal_flattenedAll : ∀ {path : List Segment}, Segment.ArgumentsLegal path →
    Segment.ArgumentsLegal (Segment.flattenedAll path)
  | [], h => h
  | ⟨_, _⟩ :: _, h => ⟨allLegal_flattenedAll h.1, argumentsLegal_flattenedAll h.2⟩

theorem argumentLegal_flattened : ∀ {argument : TypeArgument}, argument.Legal → argument.flattened.Legal
  | .unbounded, h => h
  | .exactly _, h => ⟨isReference_flattened h.1, legal_flattened h.2⟩
  | .upperBound _, h => ⟨isReference_flattened h.1, legal_flattened h.2⟩
  | .lowerBound _, h => ⟨isReference_flattened h.1, legal_flattened h.2⟩

theorem allLegal_flattenedAll : ∀ {arguments : List TypeArgument}, TypeArgument.AllLegal arguments →
    TypeArgument.AllLegal (TypeArgument.flattenedAll arguments)
  | [], h => h
  | _ :: _, h => ⟨argumentLegal_flattened h.1, allLegal_flattenedAll h.2⟩

end

/-- Lists nest in the paths that have some, and these keep them. -/
theorem argumentNesting_of_not_parameterized {path : List Segment} (h : isParameterized path = false) :
    Segment.argumentNesting path = 0 := by
  rw [← Nat.le_zero, Segment.argumentNesting_le_iff]
  intro s hs a ha
  have hempty : s.arguments = [] := by simpa using List.any_eq_false.mp h s hs
  rw [hempty] at ha
  exact absurd ha List.not_mem_nil

mutual

theorem argumentNesting_flattened : ∀ t : Signature, t.flattened.argumentNesting = t.argumentNesting
  | .base _ => rfl
  | .void => rfl
  | .classType path => by
    rw [Signature.flattened]
    split
    · exact pathNesting_flattenedAll path
    · next h => exact (argumentNesting_of_not_parameterized (by simpa using h)).symm
  | .array component => argumentNesting_flattened component
  | .typeVariable _ => rfl

theorem pathNesting_flattenedAll : ∀ path : List Segment,
    Segment.argumentNesting (Segment.flattenedAll path) = Segment.argumentNesting path
  | [] => rfl
  | ⟨_, arguments⟩ :: rest => by
    rw [Segment.flattenedAll, Segment.argumentNesting, Segment.argumentNesting,
      listNesting_flattenedAll arguments, pathNesting_flattenedAll rest]

theorem nesting_flattened : ∀ argument : TypeArgument,
    argument.flattened.argumentNesting = argument.argumentNesting
  | .unbounded => rfl
  | .exactly t => argumentNesting_flattened t
  | .upperBound t => argumentNesting_flattened t
  | .lowerBound t => argumentNesting_flattened t

theorem listNesting_flattenedAll : ∀ arguments : List TypeArgument,
    TypeArgument.listNesting (TypeArgument.flattenedAll arguments) = TypeArgument.listNesting arguments
  | [] => rfl
  | argument :: rest => by
    rw [TypeArgument.flattenedAll, TypeArgument.listNesting, TypeArgument.listNesting,
      nesting_flattened argument, listNesting_flattenedAll rest]

end

/-- **A tree that can be written can be written flattened.** -/
theorem wellFormed_flattened {t : Signature} (h : t.WellFormed) : t.flattened.WellFormed := by
  rcases h with rfl | ⟨hlegal, hnesting⟩
  · exact .inl rfl
  · refine .inr ⟨legal_flattened hlegal, ?_⟩
    rwa [argumentNesting_flattened]

theorem parse_render_flattened {t : Signature} (h : t.WellFormed) :
    Signature.parse t.flattened.render = .ok t.flattened :=
  (Signature.parse_eq_ok_iff _ _).mpr ⟨wellFormed_flattened h, rfl⟩

/-! ### flattened trees resolve alike -/

namespace Registry

variable {r : Registry} {scope : Class}

mutual

/-- **A legal tree and its flattening resolve alike**, to one type or with one error. -/
theorem resolveTree_flattened : ∀ {t : Signature}, t.Legal →
    r.resolveTree scope t.flattened = r.resolveTree scope t
  | .base _, _ => rfl
  | .void, _ => rfl
  | .classType path, h => by
    rw [Signature.flattened]
    by_cases hpath : isParameterized path
    · have hflat : isParameterized (Segment.flattenedAll path) := by rwa [isParameterized_flattenedAll]
      rw [if_pos hpath, resolveTree, if_pos hflat, resolveTree, if_pos hpath]
      exact resolvePath_flattenedAll h.2
    · have hname : binaryName [⟨joinedName path, []⟩] = binaryName path := (joinedName_spells h.1).2
      have hflat : ¬ isParameterized [⟨joinedName path, []⟩] := nofun
      rw [if_neg hpath, resolveTree, if_neg hflat, resolveTree, if_neg hpath, hname]
  | .array component, h => by
    have hcomponent : r.resolveTree scope component.flattened = r.resolveTree scope component :=
      resolveTree_flattened h.2
    rw [Signature.flattened, resolveTree, resolveTree, hcomponent]
  | .typeVariable _, _ => rfl

theorem resolvePath_flattenedAll : ∀ {path : List Segment} {outer : Option String}
    {owner : Option (ResolvedType Class)}, Segment.ArgumentsLegal path →
    r.resolvePath scope outer owner (Segment.flattenedAll path) = r.resolvePath scope outer owner path
  | [], _, _, _ => rfl
  | ⟨name, arguments⟩ :: rest, outer, owner, h => by
    rw [Segment.flattenedAll, resolvePath, resolvePath, resolveArguments_flattenedAll h.1]
    refine bind_congr fun raw => bind_congr fun types => ?_
    exact resolvePath_flattenedAll h.2

theorem resolveArgument_flattened : ∀ {argument : TypeArgument}, argument.Legal →
    r.resolveArgument scope argument.flattened = r.resolveArgument scope argument
  | .unbounded, _ => rfl
  | .exactly t, h => by
    rw [TypeArgument.flattened, resolveArgument, resolveArgument]
    exact resolveTree_flattened h.2
  | .upperBound t, h => by
    have hbound : r.resolveTree scope t.flattened = r.resolveTree scope t := resolveTree_flattened h.2
    rw [TypeArgument.flattened, resolveArgument, resolveArgument, hbound]
  | .lowerBound t, h => by
    have hbound : r.resolveTree scope t.flattened = r.resolveTree scope t := resolveTree_flattened h.2
    rw [TypeArgument.flattened, resolveArgument, resolveArgument, hbound]

theorem resolveArguments_flattenedAll : ∀ {arguments : List TypeArgument}, TypeArgument.AllLegal arguments →
    r.resolveArguments scope (TypeArgument.flattenedAll arguments) = r.resolveArguments scope arguments
  | [], _ => rfl
  | argument :: rest, h => by
    rw [TypeArgument.flattenedAll, resolveArguments, resolveArguments, resolveArgument_flattened h.1,
      resolveArguments_flattenedAll h.2]

end

/-- What a text resolves to, once it is read. -/
theorem resolve_of_parse {text : String} {t : Signature} (h : Signature.parse text = .ok t) :
    r.resolve text scope = r.resolveTree scope t := by
  rw [resolve, h]

end Registry

namespace Deferred

/-- The name that a text gives to its class, once it is read. -/
theorem binaryNameOf_of_parse {text : String} {path : List Segment}
    (h : Signature.parse text = .ok (.classType path)) : binaryNameOf text = binaryName path := by
  rw [binaryNameOf, h]

end Deferred

/-- The class at the top of a tree is named alike. -/
theorem flattened_classType {path : List Segment} (h : Segment.NamesLegal path) :
    ∃ flat, (Signature.classType path).flattened = .classType flat ∧ binaryName flat = binaryName path := by
  by_cases hpath : isParameterized path
  · exact ⟨_, if_pos hpath, binaryName_flattenedAll path⟩
  · exact ⟨_, if_neg hpath, (joinedName_spells h).2⟩

/-- **The spelling of inner classes does not matter.**  A text that can be read can be written with one name
for every path without type arguments; in every registry and scope the new text resolves to the same type or
with the same error, and if the texts name a class, they give it the same name. -/
theorem spelling_of_inner_classes {text : String} {t : Signature} (h : Signature.parse text = .ok t) :
    Signature.parse t.flattened.render = .ok t.flattened ∧
      (∀ (r : Registry) (scope : Class), r.resolve t.flattened.render scope = r.resolve text scope) ∧
      ∀ path, t = .classType path →
        Deferred.binaryNameOf t.flattened.render = Deferred.binaryNameOf text := by
  obtain ⟨hwell, -⟩ := (Signature.parse_eq_ok_iff text t).mp h
  have hflat : Signature.parse t.flattened.render = .ok t.flattened := parse_render_flattened hwell
  refine ⟨hflat, ?resolved, ?named⟩
  case resolved =>
    intro r scope
    rw [Registry.resolve_of_parse hflat, Registry.resolve_of_parse h]
    rcases hwell with rfl | ⟨hlegal, -⟩
    · rfl
    · exact Registry.resolveTree_flattened hlegal
  case named =>
    rintro path rfl
    obtain hvoid | ⟨hlegal, -⟩ := hwell
    · cases hvoid
    · obtain ⟨flat, heq, hname⟩ := flattened_classType hlegal.1
      rw [heq] at hflat ⊢
      rw [Deferred.binaryNameOf_of_parse hflat, Deferred.binaryNameOf_of_parse h, hname]

/-- An inner class inside the bound of another one that has arguments itself. -/
theorem entry_of_inner_keys :
    let t : Signature := .classType
      [⟨"p/Map", [.upperBound (.array (.classType [⟨"p/A", []⟩, ⟨"B", []⟩]))]⟩, ⟨"Entry", []⟩]
    Signature.parse "Lp/Map<+[Lp/A.B;>.Entry;" = .ok t ∧ t.flattened.render = "Lp/Map<+[Lp/A$B;>.Entry;" ∧
      (∀ (r : Registry) (scope : Class),
        r.resolve "Lp/Map<+[Lp/A$B;>.Entry;" scope = r.resolve "Lp/Map<+[Lp/A.B;>.Entry;" scope) ∧
      Deferred.binaryNameOf "Lp/Map<+[Lp/A$B;>.Entry;" =
        Deferred.binaryNameOf "Lp/Map<+[Lp/A.B;>.Entry;" := by
  intro t
  have hparse : Signature.parse "Lp/Map<+[Lp/A.B;>.Entry;" = .ok t := rfl
  have hflat : t.flattened.render = "Lp/Map<+[Lp/A$B;>.Entry;" := by decide +kernel
  obtain ⟨-, hresolve, hname⟩ := spelling_of_inner_classes hparse
  rw [hflat] at hresolve hname
  exact ⟨hparse, hflat, hresolve, hname _ rfl⟩

end ClassMetadata
