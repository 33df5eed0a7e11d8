import ClassMetadata.Environment

/-!
# What is seen of the scope

Everything is resolved on behalf of a class, but only type variables are looked up from there: all other names
are looked up in the registry.  Two scopes that find the same declarations for the type variables of a
signature resolve it alike, errors included, and two that do so for all signatures of a tree materialize it
alike.  Where there are no type variables the scope cannot be told from what comes out.

* `Signature.typeVariables`: the type variables of a tree; `Registry.resolveTree_congr`: **resolution
  depends on the scope by way of these alone**;
* `Value.signatures`, `Node.signatures`: the signatures in a deferred tree; `result_value_congr`,
  `result_node_congr`: **the outcome depends on the scope by way of what these resolve to**;
* `Environment.scope_unseen_without_variables`: **without type variables the outcome is the same for all
  scopes**.
-/

namespace ClassMetadata

/-! ### type variables -/

mutual

/-- The names of the type variables of a tree in order, those in arguments and bounds included. -/
def Signature.typeVariables : Signature → List String
  | .base _ => []
  | .void => []
  | .classType path => Segment.pathVariables path
  | .array component => component.typeVariables
  | .typeVariable name => [name]

def Segment.pathVariables : List Segment → List String
  | [] => []
  | ⟨_, arguments⟩ :: rest => TypeArgument.listVariables arguments ++ Segment.pathVariables rest

def TypeArgument.typeVariables : TypeArgument → List String
  | .unbounded => []
  | .exactly t => t.typeVariables
  | .upperBound t => t.typeVariables
  | .lowerBound t => t.typeVariables

def TypeArgument.listVariables : List TypeArgument → List String
  | [] => []
  | argument :: rest => argument.typeVariables ++ TypeArgument.listVariables rest

end

/-- The type variables of the signature that a text is; a text that is none has none. -/
def Signature.variablesIn (text : String) : List String :=
  match Signature.parse text with
  | .ok s => s.typeVariables
  | .error _ => []

/-! ### resolution -/

namespace Registry

/-- Two scopes find the same declarations for some names, or none. -/
def SeenAlike (r : Registry) (scope scope' : Class) (names : List String) : Prop :=
  ∀ name ∈ names, r.findVariable scope name = r.findVariable scope' name

variable {r : Registry} {scope scope' : Class}

theorem seenAlike_append {names names' : List String} :
    r.SeenAlike scope scope' (names ++ names') ↔
      r.SeenAlike scope scope' names ∧ r.SeenAlike scope scope' names' :=
  List.forall_mem_append

mutual

/-- **Resolution depends on the scope by way of the type variables alone.** -/
theorem resolveTree_congr : ∀ {s : Signature}, r.SeenAlike scope scope' s.typeVariables →
    r.resolveTree scope s = r.resolveTree scope' s
  | .base _, _ => rfl
  | .void, _ => rfl
  | .array component, h => by
    have hcomponent : r.resolveTree scope component = r.resolveTree scope' component := resolveTree_congr h
    rw [resolveTree, resolveTree, hcomponent]
  | .typeVariable name, h => h name (List.mem_singleton_self name)
  | .classType path, h => by
    have hpath : r.resolvePath scope none none path = r.resolvePath scope' none none path :=
      resolvePath_congr h
    rw [resolveTree, resolveTree, hpath]

theorem resolvePath_congr : ∀ {path : List Segment} {outer : Option String}
    {owner : Option (ResolvedType Class)}, r.SeenAlike scope scope' (Segment.pathVariables path) →
    r.resolvePath scope outer owner path = r.resolvePath scope' outer owner path
  | [], _, _, _ => rfl
  | ⟨name, arguments⟩ :: rest, outer, owner, h => by
    obtain ⟨harguments, hrest⟩ := seenAlike_append.mp h
    rw [resolvePath, resolvePath, resolveArguments_congr harguments]
    refine bind_congr fun raw => bind_congr fun arguments => ?_
    exact resolvePath_congr hrest

theorem resolveArgument_congr : ∀ {argument : TypeArgument},
    r.SeenAlike scope scope' argument.typeVariables →
    r.resolveArgument scope argument = r.resolveArgument scope' argument
  | .unbounded, _ => rfl
  | .exactly t, h => by
    rw [resolveArgument, resolveArgument]
    exact resolveTree_congr h
  | .upperBound t, h => by
    have hbound : r.resolveTree scope t = r.resolveTree scope' t := resolveTree_congr h
    rw [resolveArgument, resolveArgument, hbound]
  | .lowerBound t, h => by
    have hbound : r.resolveTree scope t = r.resolveTree scope' t := resolveTree_congr h
    rw [resolveArgument, resolveArgument, hbound]

theorem resolveArguments_congr : ∀ {arguments : List TypeArgument},
    r.SeenAlike scope scope' (TypeArgument.listVariables arguments) →
    r.resolveArguments scope arguments = r.resolveArguments scope' arguments
  | [], _ => rfl
  | argument :: rest, h => by
    obtain ⟨hargument, hrest⟩ := seenAlike_append.mp h
    rw [resolveArguments, resolveArguments, resolveArgument_congr hargument, resolveArguments_congr hrest]

end

/-- A malformed text is the same error for every scope. -/
theorem resolve_congr {text : String} (h : r.SeenAlike scope scope' (Signature.variablesIn text)) :
    r.resolve text scope = r.resolve text scope' := by
  unfold Signature.variablesIn at h
  unfold resolve
  cases hparse : Signature.parse text with
  | error e => rfl
  | ok s =>
    rw [hparse] at h
    exact resolveTree_congr h

end Registry

/-! ### materialization -/

namespace Deferred

mutual

/-- The texts of the signatures in a tree in order.  An annotation that is live already has none. -/
def Value.signatures : Value → List String
  | .literal _ => []
  | .classLiteral signature => [signature]
  | .enumConstant signature _ => [signature]
  | .nested node => node.signatures
  | .array elements => Value.listSignatures elements

def Value.listSignatures : List Value → List String
  | [] => []
  | v :: vs => v.signatures ++ Value.listSignatures vs

def Node.signatures : Node → List String
  | .descriptor signature attributes => signature :: Value.entrySignatures attributes
  | .resolved _ => []

def Value.entrySignatures : List (String × Value) → List String
  | [] => []
  | (_, v) :: rest => v.signatures ++ Value.entrySignatures rest

end

/-- The same collaborators on behalf of another class. -/
def Context.withScope (cx : Context) (scope : Class) : Context := { cx with scope := scope }

theorem Context.Steady.withScope {cx : Context} (h : cx.Steady) (scope : Class) :
    (cx.withScope scope).Steady :=
  fun calls => congrArg (Context.withScope · scope) (h calls)

/-- Signatures that resolve to the same types, or fail with the same errors, on behalf of another class. -/
def Context.ResolvesAlike (cx : Context) (scope : Class) (signatures : List String) : Prop :=
  ∀ signature ∈ signatures, cx.resolve [] signature cx.scope = cx.resolve [] signature scope

section Trees

variable {cx : Context} {scope : Class}

theorem Context.resolvesAlike_append {texts texts' : List String} :
    cx.ResolvesAlike scope (texts ++ texts') ↔ cx.ResolvesAlike scope texts ∧ cx.ResolvesAlike scope texts' :=
  List.forall_mem_append

theorem Context.result_askType_congr {signature : String}
    (h : cx.resolve [] signature cx.scope = cx.resolve [] signature scope) :
    (askType signature cx).result = (askType signature (cx.withScope scope)).result :=
  congrArg (Except.mapError MaterializeError.resolution) h

theorem result_bind_congr (hcx : cx.Steady) {α β : Type} {x y : Asking α} {f g : α → Asking β}
    (hx : (x cx).result = (y (cx.withScope scope)).result)
    (hf : ∀ a, (f a cx).result = (g a (cx.withScope scope)).result) :
    ((x >>= f) cx).result = ((y >>= g) (cx.withScope scope)).result := by
  rw [Asking.result_bind_of_steady hcx, Asking.result_bind_of_steady (hcx.withScope scope), hx]
  exact bind_congr hf

mutual

/-- **What comes out of a tree depends on the scope by way of what its signatures resolve to**, if the
collaborators have no state.  The calls do not come into it: they tell the scope. -/
theorem result_value_congr (hcx : cx.Steady) : ∀ (depth : Nat) {v : Value},
    cx.ResolvesAlike scope v.signatures →
    (v.materializeAt depth cx).result = (v.materializeAt depth (cx.withScope scope)).result
  | _, .literal _, _ => rfl
  | _, .classLiteral signature, h => by
    have hresolve := h signature (List.mem_singleton_self signature)
    exact result_bind_congr hcx (Context.result_askType_congr hresolve) fun _ => rfl
  | _, .enumConstant signature _, h => by
    have hresolve := h signature (List.mem_singleton_self signature)
    exact result_bind_congr hcx (Context.result_askType_congr hresolve) fun _ => rfl
  | _, .nested node, h => by
    refine result_bind_congr hcx rfl fun depth => ?_
    exact result_bind_congr hcx (result_node_congr hcx depth h) fun _ => rfl
  | _, .array elements, h => by
    refine result_bind_congr hcx rfl fun depth => ?_
    exact result_bind_congr hcx (result_list_congr hcx depth h) fun _ => rfl

theorem result_list_congr (hcx : cx.Steady) : ∀ (depth : Nat) {vs : List Value},
    cx.ResolvesAlike scope (Value.listSignatures vs) →
    (Value.materializeList depth vs cx).result =
      (Value.materializeList depth vs (cx.withScope scope)).result
  | _, [], _ => rfl
  | depth, v :: vs, h => by
    obtain ⟨hv, hvs⟩ := Context.resolvesAlike_append.mp h
    refine result_bind_congr hcx (result_value_congr hcx depth hv) fun _ => ?_
    exact result_bind_congr hcx (result_list_congr hcx depth hvs) fun _ => rfl

theorem result_node_congr (hcx : cx.Steady) : ∀ (depth : Nat) {node : Node},
    cx.ResolvesAlike scope node.signatures →
    (node.materializeAt depth cx).result = (node.materializeAt depth (cx.withScope scope)).result
  | _, .resolved _, _ => rfl
  | depth, .descriptor signature attributes, h => by
    obtain ⟨htype, hattributes⟩ := List.forall_mem_cons.mp h
    refine result_bind_congr hcx (Context.result_askType_congr htype) fun type => ?_
    refine result_bind_congr hcx rfl fun c => ?_
    exact result_bind_congr hcx (result_entries_congr hcx depth hattributes) fun _ => rfl

theorem result_entries_congr (hcx : cx.Steady) : ∀ (depth : Nat) {attributes : List (String × Value)},
    cx.ResolvesAlike scope (Value.entrySignatures attributes) →
    (Value.materializeEntries depth attributes cx).result =
      (Value.materializeEntries depth attributes (cx.withScope scope)).result
  | _, [], _ => rfl
  | depth, (_, v) :: rest, h => by
    obtain ⟨hv, hrest⟩ := Context.resolvesAlike_append.mp h
    refine result_bind_congr hcx (result_value_congr hcx depth hv) fun _ => ?_
    exact result_bind_congr hcx (result_entries_congr hcx depth hrest) fun _ => rfl

end

end Trees

end Deferred

/-! ### environments -/

namespace Environment

variable {env : Environment} {scope scope' : Class}

/-- Signatures without type variables. -/
def NoVariables (signatures : List String) : Prop :=
  ∀ signature ∈ signatures, Signature.variablesIn signature = []

theorem resolvesAlike_of_noVariables {signatures : List String} (h : NoVariables signatures) :
    (env.context scope).ResolvesAlike scope' signatures := by
  intro signature hsignature
  apply Registry.resolve_congr
  rw [h signature hsignature]
  exact List.forall_mem_nil _

/-- **Without type variables the outcome is the same for all scopes**, be it a result or an error. -/
theorem scope_unseen_without_variables (env : Environment) (scope scope' : Class) :
    (∀ v : Deferred.Value, NoVariables v.signatures →
        v.materialize (env.context scope) = v.materialize (env.context scope')) ∧
      ∀ node : Deferred.Node, NoVariables node.signatures →
        env.materialize node scope = env.materialize node scope' := by
  constructor
  · intro v h
    exact Deferred.result_value_congr (env.steady_context scope) 0 (resolvesAlike_of_noVariables h)
  · intro node h
    exact Deferred.result_node_congr (env.steady_context scope) 0 (resolvesAlike_of_noVariables h)

/-- Two scopes, of which one declares a type variable: they are not seen through a wildcard and an array, nor
when a signature is malformed behind a constant that was found; they are where the variable is named. -/
theorem list_and_kind_unseen :
    let kind := (Class.named .enum "Kind").withConstants ["FAST"]
    let list := (Class.named .plain "List").withTypeParameters ["T"]
    let mark := ((Class.named .annotationInterface "Mark").declare
      "kinds" (.array (.enum "Kind")) none).declare "type" .classLiteral none
    let env := Environment.ofRegistry ⟨[kind, list, mark]⟩
    let node (type : String) : Deferred.Node := .descriptor "LMark;"
      [("kinds", .array [.enumConstant "LKind;" "FAST"]), ("type", .classLiteral type)]
    NoVariables (node "LList<+[LKind;>;").signatures ∧ NoVariables (node "LList<").signatures ∧
      env.materialize (node "LList<+[LKind;>;") list = env.materialize (node "LList<+[LKind;>;") kind ∧
      env.materialize (node "LList<") list = env.materialize (node "LList<") kind ∧
      env.registry.resolve "TT;" list = .ok (.typeVariable "T" list) ∧
      env.registry.resolve "TT;" kind = .error (.typeVariableNotFound "T" "Kind") := by
  intro kind list mark env node
  have hbounded : NoVariables (node "LList<+[LKind;>;").signatures := by
    unfold NoVariables
    decide +kernel
  have hbroken : NoVariables (node "LList<").signatures := by
    unfold NoVariables
    decide +kernel
  have hvariable : Signature.parse "TT;" = .ok (.typeVariable "T") := rfl
  have hlist : env.registry.resolve "TT;" list = .ok (.typeVariable "T" list) := by
    rw [Registry.resolve, hvariable]
    rfl
  have hkind : env.registry.resolve "TT;" kind = .error (.typeVariableNotFound "T" "Kind") := by
    rw [Registry.resolve, hvariable]
    rfl
  obtain ⟨-, hnodes⟩ := scope_unseen_without_variables env list kind
  exact ⟨hbounded, hbroken, hnodes _ hbounded, hnodes _ hbroken, hlist, hkind⟩

end Environment

end ClassMetadata
