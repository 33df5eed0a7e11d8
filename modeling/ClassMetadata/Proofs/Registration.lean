import ClassMetadata.Environment
import ClassMetadata.Proofs.Deferred.TwoRuns
import ClassMetadata.Proofs.Resolution.Queries

/-!
# Registering new classes

A class with a new name changes nothing for a program that did not miss a class.  A larger registry finds
whatever a smaller one finds: a new class may lie around an outermost class or be the class of a later
segment, but both are places where the search of the smaller registry had failed.

* `Registry.Extends r r'`: `r'` finds the classes of `r` under their names; `extends_registerAll`:
  registering classes with new names extends a registry;
* `Mirrors.mono`: a type that mirrors a tree still does, so a resolved type stays the same;
* `isMissing_of_resolveTree`: resolving a tree only fails when a class or a type variable is not found;
* `registration_is_conservative`: **whatever did not fail for want of a class or a type variable goes on as
  before**, errors and calls included.
-/

namespace ClassMetadata

/-- A class or a type variable is not found. -/
def ResolveError.IsMissing : ResolveError → Prop
  | malformed _ _ => False
  | classNotFound _ => True
  | typeVariableNotFound _ _ => True

/-- A class or a type variable is not found. -/
def MaterializeError.IsMissing : MaterializeError → Prop
  | resolution cause => cause.IsMissing
  | _ => False

namespace Registry

/-! ### larger registries -/

/-- The classes of `r` are found in `r'` as well. -/
def Extends (r r' : Registry) : Prop := ∀ name c, r.lookup name = some c → r'.lookup name = some c

variable {r r' : Registry} {scope : Class}

theorem lookup_registerAll_of_ne {cs : List Class} {name : String} (h : ∀ c ∈ cs, c.name ≠ name) :
    (r.registerAll cs).lookup name = r.lookup name := by
  induction cs generalizing r with
  | nil => rfl
  | cons c rest ih =>
    obtain ⟨hc, hrest⟩ := List.forall_mem_cons.mp h
    have hfirst : (r.register c).lookup name = r.lookup name := by
      rw [lookup_register, if_neg hc]
    exact (ih hrest).trans hfirst

theorem extends_registerAll {cs : List Class} (hnew : ∀ c ∈ cs, r.lookup c.name = none) :
    r.Extends (r.registerAll cs) := by
  intro name d hd
  have hne : ∀ c ∈ cs, c.name ≠ name := by
    rintro c hc rfl
    rw [hnew c hc] at hd
    cases hd
  rw [lookup_registerAll_of_ne hne, hd]

/-! ### what is found stays -/

theorem Leads.mono (h : r.Extends r') {c d : Class} {inner : List Class} (hleads : r.Leads c inner d) :
    r'.Leads c inner d := by
  induction hleads with
  | here c => exact .here c
  | outwards houter _ ih =>
    obtain ⟨name, hname, hlookup⟩ := Option.bind_eq_some_iff.mp houter
    exact .outwards (Option.bind_eq_some_iff.mpr ⟨name, hname, h name _ hlookup⟩) ih

theorem DeclaredAt.mono (h : r.Extends r') {name : String} {c : Class} (hc : r.DeclaredAt scope name c) :
    r'.DeclaredAt scope name c := by
  obtain ⟨inner, hleads, hrest⟩ := hc
  exact ⟨inner, hleads.mono h, hrest⟩

mutual

theorem Mirrors.mono (h : r.Extends r') : ∀ {s : Signature} {t : ResolvedType Class},
    r.Mirrors scope s t → r'.Mirrors scope s t
  | _, _, .base s => .base s
  | _, _, .void => .void
  | _, _, .array hs => .array (hs.mono h)
  | _, _, .typeVariable hc => .typeVariable (hc.mono h)
  | _, _, .plain hpath hlookup => .plain hpath (h _ _ hlookup)
  | _, _, .parameterized hpath hs => .parameterized hpath (hs.mono h)

theorem MirrorsPath.mono (h : r.Extends r') : ∀ {path : List Segment} {t : ResolvedType Class},
    r.MirrorsPath scope path t → r'.MirrorsPath scope path t
  | _, _, .first hlookup => .first (h _ _ hlookup)
  | _, _, .firstWithArguments hne hlookup hts => .firstWithArguments hne (h _ _ hlookup) (hts.mono h)
  | _, _, .later hpath hlookup hts => .later (hpath.mono h) (h _ _ hlookup) (hts.mono h)

theorem MirrorsArgument.mono (h : r.Extends r') : ∀ {argument : TypeArgument} {t : ResolvedType Class},
    r.MirrorsArgument scope argument t → r'.MirrorsArgument scope argument t
  | _, _, .unbounded => .unbounded
  | _, _, .exactly hs => .exactly (hs.mono h)
  | _, _, .upperBound hs => .upperBound (hs.mono h)
  | _, _, .lowerBound hs => .lowerBound (hs.mono h)

theorem MirrorsArguments.mono (h : r.Extends r') : ∀ {arguments : List TypeArgument}
    {ts : List (ResolvedType Class)},
    r.MirrorsArguments scope arguments ts → r'.MirrorsArguments scope arguments ts
  | _, _, .nil => .nil
  | _, _, .cons harg hrest => .cons (harg.mono h) (hrest.mono h)

end

/-! ### resolution -/

/-- Trees are resolved by looking things up, so there is nothing else to fail. -/
theorem isMissing_of_resolveTree {s : Signature} {e : ResolveError}
    (h : r.resolveTree scope s = .error e) : e.IsMissing := by
  obtain ⟨_, query, _, _, _, _, rfl⟩ := (settles_resolveTree s).of_error h
  cases query <;> trivial

theorem resolve_of_extends (h : r.Extends r') (text : String) :
    r'.resolve text scope = r.resolve text scope ∨ ∃ e, e.IsMissing ∧ r.resolve text scope = .error e := by
  unfold resolve
  cases Signature.parse text with
  | error e => exact .inl rfl
  | ok s =>
    cases hs : r.resolveTree scope s with
    | error e => exact .inr ⟨e, isMissing_of_resolveTree hs, hs⟩
    | ok t =>
      have hmirrors : r'.Mirrors scope s t := (resolveTree_eq_ok_iff.mp hs).mono h
      have hs' : r'.resolveTree scope s = .ok t := resolveTree_eq_ok_iff.mpr hmirrors
      exact .inl (hs'.trans hs.symm)

end Registry

/-! ### materialization -/

namespace Environment

/-- The environment after registering classes. -/
def registerAll (env : Environment) (cs : List Class) : Environment :=
  { env with registry := env.registry.registerAll cs }

theorem agreesUnless_of_extends {env env' : Environment} (h : env.registry.Extends env'.registry)
    (hsettings : env'.settings = env.settings) (scope : Class) :
    (env.context scope).AgreesUnless MaterializeError.IsMissing (env'.context scope) where
  askType := by
    intro _ signature
    have hresolve : env'.registry.resolve signature scope = env.registry.resolve signature scope ∨
        ∃ e, e.IsMissing ∧ env.registry.resolve signature scope = .error e :=
      Registry.resolve_of_extends h signature
    rcases hresolve with hsame | ⟨e, he, hfailed⟩
    · left
      change (⟨_, (env'.registry.resolve signature scope).mapError _⟩ : Deferred.Traced _) = _
      rw [hsame]
      rfl
    · right
      refine ⟨.resolution e, he, ?_⟩
      change (env.registry.resolve signature scope).mapError _ = _
      rw [hfailed]
      rfl
  askBuild := fun _ _ _ => .refl _
  descend := by
    intro depth
    have hlimit : (env'.context scope).maxDepth = (env.context scope).maxDepth :=
      congrArg Settings.maxDepth hsettings
    left
    unfold Deferred.descend
    rw [hlimit]

/-- **Registering classes under new names changes no outcome, unless a class or a type variable was not
found before.** -/
theorem registration_is_conservative (env : Environment) (scope : Class) {cs : List Class}
    (hnew : ∀ c ∈ cs, env.registry.lookup c.name = none) :
    (∀ text, (∀ e, e.IsMissing → env.registry.resolve text scope ≠ .error e) →
        (env.registerAll cs).registry.resolve text scope = env.registry.resolve text scope) ∧
      (∀ v : Deferred.Value, (∀ e, e.IsMissing → v.materialize (env.context scope) ≠ .error e) →
        v.trace ((env.registerAll cs).context scope) = v.trace (env.context scope)) ∧
      ∀ node : Deferred.Node, (∀ e, e.IsMissing → node.materialize (env.context scope) ≠ .error e) →
        node.trace ((env.registerAll cs).context scope) = node.trace (env.context scope) := by
  have hextends : env.registry.Extends (env.registerAll cs).registry := Registry.extends_registerAll hnew
  have hagrees := agreesUnless_of_extends hextends rfl scope
  refine ⟨fun text htext => ?_, fun v hv => ?_, fun node hnode => ?_⟩
  · rcases Registry.resolve_of_extends hextends text with hsame | ⟨e, he, hfailed⟩
    · exact hsame
    · exact absurd hfailed (htext e he)
  · exact (Deferred.sameUnless_value hagrees 0 v).eq hv
  · exact (Deferred.sameUnless_node hagrees 0 node).eq hnode

/-- A value of the wrong type stays what it is, and so does a type, when an inner class and an enum are
registered. -/
theorem conservative_for_wrong_value :
    let mark := (Class.named .annotationInterface "Mark").declare "count" (.literal (.base .int)) none
    let added := [(Class.named .plain "Mark$Inner").enclosedBy "Mark", Class.named .enum "Kind"]
    let env := Environment.ofRegistry (Registry.empty.register mark)
    let node : Deferred.Node := .descriptor "LMark;" [("count", .literal (.string "one"))]
    (∀ c ∈ added, env.registry.lookup c.name = none) ∧
      node.materialize (env.context mark)
          = .error (.construction (.typeMismatch "Mark" "count" "int" "java.lang.String")) ∧
        (env.registerAll added).registry.resolve "[LMark;" mark = .ok (.array (.classType mark)) ∧
          node.trace ((env.registerAll added).context mark) = node.trace (env.context mark) := by
  intro mark added env node
  have hnew : ∀ c ∈ added, env.registry.lookup c.name = none :=
    List.forall_mem_cons.mpr ⟨rfl, List.forall_mem_singleton.mpr rfl⟩
  have hwrong : node.materialize (env.context mark)
      = .error (.construction (.typeMismatch "Mark" "count" "int" "java.lang.String")) := rfl
  have htext : env.registry.resolve "[LMark;" mark = .ok (.array (.classType mark)) := rfl
  obtain ⟨htexts, -, hnodes⟩ := registration_is_conservative env mark hnew
  have hlater : (env.registerAll added).registry.resolve "[LMark;" mark
      = env.registry.resolve "[LMark;" mark := by
    apply htexts
    intro e _ hfailed
    rw [htext] at hfailed
    cases hfailed
  have htrace : node.trace ((env.registerAll added).context mark) = node.trace (env.context mark) := by
    apply hnodes
    intro e he hfailed
    rw [hwrong] at hfailed
    cases hfailed
    exact he
  exact ⟨hnew, hwrong, hlater.trans htext, htrace⟩

end Environment

end ClassMetadata
