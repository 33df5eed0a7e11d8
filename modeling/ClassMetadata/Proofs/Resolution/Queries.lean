import ClassMetadata.Proofs.Resolution.Mirrors

/-!
# What resolution looks up

A signature is resolved by looking up classes and type variables, one after the other, and each of these can
be answered or not.  Which ones it takes, and in which order, can be read off the tree.

* `Signature.queries`: what is looked up for a tree, from left to right, the class of a segment before its
  arguments and before the segments behind it;
* `Registry.Answers`: a class is registered, a type variable is declared around the scope;
* `Registry.FirstUnanswered`: the error of the first query without an answer;
* `Settles`: a result that is there exactly if all queries are answered, and otherwise is the error of the
  first one that is not.  `Settles.bind` puts two parts together, and the trees are taken case by case;
* `resolveTree_settles_and_mirrors`: **resolution succeeds exactly if all queries are answered, then gives the
  type that mirrors the tree, and otherwise gives the error of the first query without an answer**.
-/

namespace ClassMetadata

/-! ### queries -/

inductive Query
  | classNamed (name : String)
  | typeVariable (name : String)
  deriving DecidableEq, Repr

mutual

/-- What is looked up for a signature.  Without type arguments only the innermost class of a path is. -/
def Signature.queries : Signature → List Query
  | .base _ => []
  | .void => []
  | .array component => component.queries
  | .typeVariable name => [.typeVariable name]
  | .classType path =>
    if isParameterized path then Segment.queries (segmentNames path) path
    else [.classNamed (binaryName path)]

/-- For every segment its class, which has the next of the names, and then its arguments. -/
def Segment.queries : List String → List Segment → List Query
  | name :: names, ⟨_, arguments⟩ :: rest =>
    .classNamed name :: (TypeArgument.listQueries arguments ++ Segment.queries names rest)
  | _, _ => []

def TypeArgument.queries : TypeArgument → List Query
  | .unbounded => []
  | .exactly s => s.queries
  | .upperBound s => s.queries
  | .lowerBound s => s.queries

def TypeArgument.listQueries : List TypeArgument → List Query
  | [] => []
  | argument :: rest => argument.queries ++ TypeArgument.listQueries rest

end

namespace Registry

/-- A query has an answer. -/
def Answers (r : Registry) (scope : Class) : Query → Prop
  | .classNamed name => ∃ c, r.lookup name = some c
  | .typeVariable name => ∃ c, r.DeclaredAt scope name c

end Registry

/-- The error of a query without an answer. -/
def Query.error (scope : Class) : Query → ResolveError
  | classNamed name => .classNotFound name
  | typeVariable name => .typeVariableNotFound name scope.name

/-- The first of the queries without an answer has this error. -/
def Registry.FirstUnanswered (r : Registry) (scope : Class) (queries : List Query) (e : ResolveError) :
    Prop :=
  ∃ before query after, queries = before ++ query :: after ∧ (∀ q ∈ before, r.Answers scope q) ∧
    ¬ r.Answers scope query ∧ e = query.error scope

/-- Either all queries are answered and there is a result, or the first one without an answer ends it. -/
inductive Settles (r : Registry) (scope : Class) {α : Type} (queries : List Query) :
    Except ResolveError α → Prop
  | answered {a : α} : (∀ q ∈ queries, r.Answers scope q) → Settles r scope queries (.ok a)
  | unanswered {e : ResolveError} : r.FirstUnanswered scope queries e → Settles r scope queries (.error e)

variable {r : Registry} {scope : Class} {α β : Type}

theorem Registry.FirstUnanswered.not_answered {queries : List Query} {e : ResolveError}
    (h : r.FirstUnanswered scope queries e) : ¬ ∀ q ∈ queries, r.Answers scope q := by
  obtain ⟨before, query, after, rfl, -, hquery, -⟩ := h
  intro hall
  exact hquery (hall query (by simp))

namespace Settles

variable {p q : List Query}

/-- A result without queries. -/
theorem pure (a : α) : Settles r scope [] (Except.ok a) := .answered nofun

/-- A single query. -/
theorem single {query : Query} {x : Except ResolveError α} (hok : ∀ a, x = .ok a → r.Answers scope query)
    (herror : ∀ e, x = .error e → ¬ r.Answers scope query ∧ e = query.error scope) :
    Settles r scope [query] x := by
  cases x with
  | ok a => exact .answered (List.forall_mem_singleton.mpr (hok a rfl))
  | error e =>
    obtain ⟨hquery, he⟩ := herror e rfl
    exact .unanswered ⟨[], query, [], rfl, nofun, hquery, he⟩

/-- Queries that are answered may come first. -/
theorem after {x : Except ResolveError α} (hp : ∀ query ∈ p, r.Answers scope query)
    (hx : Settles r scope q x) : Settles r scope (p ++ q) x := by
  cases hx with
  | answered hq => exact .answered (List.forall_mem_append.mpr ⟨hp, hq⟩)
  | unanswered h =>
    obtain ⟨before, query, after, rfl, hbefore, hquery, he⟩ := h
    have hall := List.forall_mem_append.mpr ⟨hp, hbefore⟩
    exact .unanswered ⟨p ++ before, query, after, by simp, hall, hquery, he⟩

/-- Going on with a result goes on with the queries. -/
theorem bind {x : Except ResolveError α} {f : α → Except ResolveError β} (hx : Settles r scope p x)
    (hf : ∀ a, x = .ok a → Settles r scope q (f a)) : Settles r scope (p ++ q) (x >>= f) := by
  cases hx with
  | unanswered h =>
    obtain ⟨before, query, after, rfl, hbefore, hquery, he⟩ := h
    exact .unanswered ⟨before, query, after ++ q, by simp, hbefore, hquery, he⟩
  | @answered a hp =>
    have hfa : Settles r scope q (f a) := hf a rfl
    exact hfa.after hp

/-- A last step that looks up nothing. -/
theorem map {x : Except ResolveError α} {f : α → β} (hx : Settles r scope p x) :
    Settles r scope p (x >>= fun a => .ok (f a)) := by
  have h := hx.bind (q := []) fun a _ => pure (f a)
  rwa [List.append_nil] at h

theorem exists_ok_iff {x : Except ResolveError α} (h : Settles r scope p x) :
    (∃ a, x = .ok a) ↔ ∀ q ∈ p, r.Answers scope q := by
  cases h with
  | answered hp => simpa using hp
  | unanswered h => simpa using h.not_answered

theorem of_error {x : Except ResolveError α} (h : Settles r scope p x) {e : ResolveError}
    (he : x = .error e) : r.FirstUnanswered scope p e := by
  cases h with
  | answered => cases he
  | unanswered h =>
    cases he
    exact h

end Settles

/-! ### single queries -/

namespace Registry

theorem settles_find (name : String) : Settles r scope [.classNamed name] (r.find name) := by
  apply Settles.single
  · intro c hc
    exact ⟨c, find_eq_ok_iff.mp hc⟩
  · intro e he
    unfold find at he
    cases h : r.lookup name with
    | some c =>
      rw [h] at he
      cases he
    | none =>
      rw [h] at he
      cases he
      exact ⟨by simp [Answers, h], rfl⟩

theorem settles_findVariable (name : String) :
    Settles r scope [.typeVariable name] (r.findVariable scope name) := by
  apply Settles.single
  · intro t ht
    obtain ⟨c, hc, -⟩ := findVariable_eq_ok_iff.mp ht
    exact ⟨c, hc⟩
  · intro e he
    obtain ⟨hnone, rfl⟩ := findVariable_eq_error_iff.mp he
    exact ⟨not_exists.mpr hnone, rfl⟩

/-! ### trees -/

/-- The names of the segments of a path behind the class `outer`. -/
def namesInside : Option String → List Segment → List String
  | none, path => segmentNames path
  | some outer, path => nestedNames outer path

theorem namesInside_cons (outer : Option String) (segment : Segment) (rest : List Segment) :
    namesInside outer (segment :: rest) =
      nameInside outer segment.name :: namesInside (some (nameInside outer segment.name)) rest := by
  cases outer <;> rfl

mutual

theorem settles_resolveTree : ∀ s : Signature, Settles r scope s.queries (r.resolveTree scope s)
  | .base _ => .pure _
  | .void => .pure _
  | .array component => (settles_resolveTree component).map
  | .typeVariable name => settles_findVariable name
  | .classType path => by
    rw [Signature.queries, resolveTree]
    by_cases hpath : isParameterized path
    · have hne : path ≠ [] := by
        rintro rfl
        cases hpath
      rw [if_pos hpath, if_pos hpath]
      exact settles_resolvePath path none none (.inl hne)
    · rw [if_neg hpath, if_neg hpath]
      exact (settles_find (binaryName path)).map

/-- A path is resolved unless it is empty and nothing is behind it. -/
theorem settles_resolvePath : ∀ (path : List Segment) (outer : Option String)
    (owner : Option (ResolvedType Class)), path ≠ [] ∨ owner.isSome →
    Settles r scope (Segment.queries (namesInside outer path) path) (r.resolvePath scope outer owner path)
  | [], outer, owner, h => by
    obtain ⟨t, rfl⟩ := Option.isSome_iff_exists.mp (h.resolve_left (by simp))
    cases outer <;> exact .pure t
  | ⟨name, arguments⟩ :: rest, outer, owner, _ => by
    rw [namesInside_cons, Segment.queries, resolvePath]
    refine (settles_find (nameInside outer name)).bind fun c _ => ?_
    refine (settles_resolveArguments arguments).bind fun ts _ => ?_
    exact settles_resolvePath rest _ _ (.inr rfl)

theorem settles_resolveArgument : ∀ argument : TypeArgument,
    Settles r scope argument.queries (r.resolveArgument scope argument)
  | .unbounded => .pure _
  | .exactly s => settles_resolveTree s
  | .upperBound s => (settles_resolveTree s).map
  | .lowerBound s => (settles_resolveTree s).map

theorem settles_resolveArguments : ∀ arguments : List TypeArgument,
    Settles r scope (TypeArgument.listQueries arguments) (r.resolveArguments scope arguments)
  | [] => .pure _
  | argument :: rest => (settles_resolveArgument argument).bind fun _ _ => (settles_resolveArguments rest).map

end

/-- **Resolution succeeds exactly if every class and type variable it looks up is found.  The result mirrors
the tree, and an error is that of the first query without an answer.** -/
theorem resolveTree_settles_and_mirrors (r : Registry) (scope : Class) (s : Signature) :
    ((∃ t, r.resolveTree scope s = .ok t) ↔ ∀ q ∈ s.queries, r.Answers scope q) ∧
      (∀ t, r.resolveTree scope s = .ok t ↔ r.Mirrors scope s t) ∧
      ∀ e, r.resolveTree scope s = .error e → r.FirstUnanswered scope s.queries e := by
  have hsettles : Settles r scope s.queries (r.resolveTree scope s) := settles_resolveTree s
  refine ⟨hsettles.exists_ok_iff, fun t => resolveTree_eq_ok_iff, ?_⟩
  intro e he
  exact hsettles.of_error he

/-- A path whose second segment alone has arguments: both classes are looked up, then the argument. -/
example : (Signature.classType [⟨"pkg/Map", []⟩, ⟨"Entry", [.exactly (.typeVariable "K")]⟩]).queries =
    [.classNamed "pkg.Map", .classNamed "pkg.Map$Entry", .typeVariable "K"] := by
  cbv

end Registry

end ClassMetadata
