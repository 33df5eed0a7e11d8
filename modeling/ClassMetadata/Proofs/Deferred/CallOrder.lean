import ClassMetadata.Proofs.Deferred.Outcome

/-!
# The order of calls

Which calls a materialization makes, and in which order, can be read off the tree alone; what the
collaborators answer, with or without a memory of earlier calls, only decides how far it gets.

* `Value.requests`, `Node.requests`: the calls that a tree asks for, from left to right, a type before its
  attributes and the annotation behind them;
* `Asks`: a call that is what a request asks for, on behalf of the scope of the context, and `AsksAll`: the
  same of several calls, each behind those before it;
* `Call.failure?`, `Context.NoneFails`: the error of a call, and calls that all succeed in their turn;
* `Traced.Follows`: the calls made are a first part of the requests, all of them when there is a result,
  and nothing comes behind a call that fails.

Main fact: `materialization_follows_requests`, **every materialization follows the requests of its tree**.
One lemma, `Follows.bind`, says how two parts go together; the trees are then taken case by case.  The parts
of a tree are materialized behind other calls, so `Follows` tells the calls that came before.
-/

namespace ClassMetadata.Deferred

/-! ### requests -/

/-- A call that a tree asks for.  The class of a `build` is the one that its signature was resolved to, just
before the calls for what is inside. -/
inductive Request
  | resolve (signature : String)
  | build (signature : String) (inside : Nat) (names : List String)
  deriving DecidableEq, Repr

mutual

/-- The calls for a value, from left to right. -/
def Value.requests : Value → List Request
  | .literal _ => []
  | .classLiteral signature => [.resolve signature]
  | .enumConstant signature _ => [.resolve signature]
  | .nested node => node.requests
  | .array elements => Value.listRequests elements

def Value.listRequests : List Value → List Request
  | [] => []
  | v :: vs => v.requests ++ Value.listRequests vs

/-- The calls for a node: its type, its attributes in order, then the annotation under the names of the
attributes. -/
def Node.requests : Node → List Request
  | .resolved _ => []
  | .descriptor signature attributes =>
    .resolve signature :: (Value.entryRequests attributes ++
      [.build signature (Value.entryRequests attributes).length (Entries.names attributes)])

def Value.entryRequests : List (String × Value) → List Request
  | [] => []
  | (_, v) :: rest => v.requests ++ Value.entryRequests rest

end

/-! ### calls and their answers -/

/-- Whether a call is what a request asks for, behind the calls of `past`: a question on behalf of the scope,
or an annotation with values under the names in their order, of the class that the question for its type was
answered with. -/
def Asks (cx : Context) (past : List Call) : Request → Call → Prop
  | .resolve signature, .resolve asked scope => asked = signature ∧ scope = cx.scope
  | .build signature inside names, .build type values =>
    (∃ before within, past = before ++ .resolve signature cx.scope :: within ∧ within.length = inside ∧
      cx.resolve before signature cx.scope = .ok (.classType type)) ∧ Entries.names values = names
  | _, _ => False

/-- Calls that are what requests ask for, one by one, each behind those before it. -/
inductive AsksAll (cx : Context) : List Call → List Request → List Call → Prop
  | nil {past : List Call} : AsksAll cx past [] []
  | cons {past calls : List Call} {requests : List Request} {request : Request} {call : Call} :
    Asks cx past request call → AsksAll cx (past ++ [call]) requests calls →
    AsksAll cx past (request :: requests) (call :: calls)

namespace AsksAll

variable {cx : Context} {past calls later : List Call} {p q : List Request}

theorem append (h : AsksAll cx past p calls) (h' : AsksAll cx (past ++ calls) q later) :
    AsksAll cx past (p ++ q) (calls ++ later) := by
  induction h with
  | nil => simpa using h'
  | cons hask _ ih => exact .cons hask (ih (by simpa using h'))

theorem length_eq (h : AsksAll cx past p calls) : calls.length = p.length := by
  induction h with
  | nil => rfl
  | cons _ _ ih => rw [List.length_cons, List.length_cons, ih]

end AsksAll

/-- The error of a call that fails, if it is the next one. -/
def Call.failure? (cx : Context) : Call → Option MaterializeError
  | .resolve signature scope =>
    match cx.resolve [] signature scope with
    | .ok _ => none
    | .error e => some (.resolution e)
  | .build type values =>
    match cx.build [] type values with
    | .ok _ => none
    | .error e => some (.construction e)

namespace Call

variable {cx : Context} {e : MaterializeError}

theorem failure?_resolve {signature : String} {scope : Class} :
    (resolve signature scope).failure? cx = some e ↔
      (cx.resolve [] signature scope).mapError .resolution = .error e := by
  rw [mapError_eq_error_iff, failure?]
  cases cx.resolve [] signature scope <;> simp

theorem failure?_build {type : Class} {values : List (String × Live.Value Class)} :
    (build type values).failure? cx = some e ↔
      (cx.build [] type values).mapError .construction = .error e := by
  rw [mapError_eq_error_iff, failure?]
  cases cx.build [] type values <;> simp

end Call

/-- A call among the calls of two parts is one of the first part or one of the second. -/
theorem cut_of_append {calls later before after : List Call} {call : Call}
    (h : calls ++ later = before ++ call :: after) :
    (∃ rest, calls = before ++ call :: rest) ∨
      ∃ between, before = calls ++ between ∧ later = between ++ call :: after := by
  rcases List.append_eq_append_iff.1 h with ⟨between, hbefore, hlater⟩ | ⟨rest, hcalls, hrest⟩
  · exact .inr ⟨between, hbefore, hlater⟩
  · cases rest with
    | nil => exact .inr ⟨[], by simpa using hcalls.symm, by simpa using hrest.symm⟩
    | cons c rest =>
      obtain ⟨rfl, -⟩ := List.cons.inj hrest
      exact .inl ⟨rest, hcalls⟩

theorem cut_of_singleton {call c : Call} {before after : List Call} (h : [call] = before ++ c :: after) :
    before = [] ∧ c = call ∧ after = [] := by
  cases before <;> simp_all

/-- Calls that all succeed, each behind those before it. -/
def Context.NoneFails (cx : Context) (calls : List Call) : Prop :=
  ∀ before call after, calls = before ++ call :: after → call.failure? (cx.behind before) = none

namespace Context

variable {cx : Context} {calls later : List Call}

theorem noneFails_nil : cx.NoneFails [] := by
  intro before call after h
  simp at h

theorem noneFails_singleton {call : Call} : cx.NoneFails [call] ↔ call.failure? cx = none := by
  constructor
  · intro h
    exact h [] call [] rfl
  · intro h before c after hsplit
    obtain ⟨rfl, rfl, -⟩ := cut_of_singleton hsplit
    exact h

theorem noneFails_append :
    cx.NoneFails (calls ++ later) ↔ cx.NoneFails calls ∧ (cx.behind calls).NoneFails later := by
  constructor
  · intro h
    constructor
    · rintro before call after rfl
      exact h before call (after ++ later) (by simp)
    · rintro before call after rfl
      rw [behind_behind]
      exact h (calls ++ before) call after (by simp)
  · rintro ⟨hcalls, hlater⟩ before call after hsplit
    rcases cut_of_append hsplit with ⟨rest, hfirst⟩ | ⟨between, rfl, hsecond⟩
    · exact hcalls before call rest hfirst
    · rw [← behind_behind]
      exact hlater between call after hsecond

end Context

/-- A materialization behind the calls of `past` that makes the calls of `requests` in their order, up to the
first failure. -/
structure Traced.Follows {α : Type} (cx : Context) (past : List Call) (requests : List Request)
    (x : Traced α) : Prop where
  /-- The calls made are a first part of the requests. -/
  made : ∃ asked, asked <+: requests ∧ AsksAll cx past asked x.calls
  /-- Questions are asked on behalf of the scope. -/
  scope : ∀ signature scope, Call.resolve signature scope ∈ x.calls → scope = cx.scope
  /-- A result takes all the requests, and no call that fails. -/
  complete : ∀ a, x.result = .ok a →
    AsksAll cx past requests x.calls ∧ (cx.behind past).NoneFails x.calls
  /-- A call that fails is the last one, and its error is the outcome. -/
  stops : ∀ before call after e, x.calls = before ++ call :: after →
    call.failure? (cx.behind (past ++ before)) = some e → after = [] ∧ x.result = .error e

namespace Traced.Follows

variable {α β : Type} {cx : Context} {past : List Call} {p q : List Request}

/-- An outcome without calls asks for nothing. -/
theorem of_no_calls (result : Except MaterializeError α) : Follows cx past [] ⟨[], result⟩ where
  made := ⟨[], List.prefix_rfl, .nil⟩
  scope := by simp
  complete := fun _ _ => ⟨.nil, Context.noneFails_nil⟩
  stops := by simp

/-- Going on with a result goes on with the requests. -/
theorem bind {x : Asking α} {f : α → Asking β} (hx : (x (cx.behind past)).Follows cx past p)
    (hf : ∀ calls a, x (cx.behind past) = ⟨calls, .ok a⟩ →
      (f a (cx.behind (past ++ calls))).Follows cx (past ++ calls) q) :
    ((x >>= f) (cx.behind past)).Follows cx past (p ++ q) := by
  rcases h : x (cx.behind past) with ⟨calls, e | a⟩
  · rw [h] at hx
    rw [Asking.bind_of_error h]
    obtain ⟨asked, hpre, hmade⟩ := hx.made
    refine ⟨⟨asked, hpre.trans (List.prefix_append p q), hmade⟩, hx.scope, nofun, ?_⟩
    intro before call after e' hsplit hfail
    obtain ⟨hlast, herr⟩ := hx.stops before call after e' hsplit hfail
    exact ⟨hlast, congrArg Except.error (Except.error.inj herr)⟩
  · have hfa := hf calls a h
    rw [h] at hx
    rw [Asking.bind_of_ok h, Context.behind_behind]
    obtain ⟨hall, hsound⟩ := hx.complete a rfl
    obtain ⟨asked, hpre, hmade⟩ := hfa.made
    refine ⟨⟨p ++ asked, (List.prefix_append_right_inj p).2 hpre, hall.append hmade⟩, ?_, ?_, ?_⟩
    · intro signature scope hmem
      exact (List.mem_append.1 hmem).elim (hx.scope signature scope) (hfa.scope signature scope)
    · intro b hb
      obtain ⟨hall', hsound'⟩ := hfa.complete b hb
      exact ⟨hall.append hall', Context.noneFails_append.mpr ⟨hsound, by rwa [Context.behind_behind]⟩⟩
    · -- the calls of `x` all succeed, so a call that fails is one of `f a`
      intro before call after e hsplit hfail
      rcases cut_of_append hsplit with ⟨rest, hfirst⟩ | ⟨between, rfl, hsecond⟩
      · have hnone := hsound before call rest hfirst
        rw [Context.behind_behind, hfail] at hnone
        cases hnone
      · rw [← List.append_assoc] at hfail
        exact hfa.stops between call after e hsecond hfail

/-- A last step that makes no calls. -/
theorem map {x : Asking α} {f : α → Asking β} (hx : (x (cx.behind past)).Follows cx past p)
    (hf : ∀ calls a, x (cx.behind past) = ⟨calls, .ok a⟩ →
      (f a (cx.behind (past ++ calls))).Follows cx (past ++ calls) []) :
    ((x >>= f) (cx.behind past)).Follows cx past p := by
  have := hx.bind hf
  rwa [List.append_nil] at this

/-- A first step that makes no calls. -/
theorem below {x : Asking α} {f : α → Asking β} {result : Except MaterializeError α}
    (hx : x (cx.behind past) = ⟨[], result⟩)
    (hf : ∀ a, result = .ok a → (f a (cx.behind past)).Follows cx past p) :
    ((x >>= f) (cx.behind past)).Follows cx past p := by
  cases result with
  | error e =>
    rw [Asking.bind_of_error hx]
    have hnothing : Follows cx past [] (⟨[], .error e⟩ : Traced β) := of_no_calls _
    exact { hnothing with made := ⟨[], List.nil_prefix, .nil⟩, complete := nofun }
  | ok a =>
    rw [Asking.bind_of_ok hx]
    exact hf a rfl

end Traced.Follows

/-! ### single calls -/

section Single

variable {cx : Context} {past : List Call}

/-- One call, with its answer as the outcome. -/
theorem follows_single {α : Type} {request : Request} {call : Call} {result : Except MaterializeError α}
    (hask : Asks cx past request call)
    (hscope : ∀ signature scope, call = .resolve signature scope → scope = cx.scope)
    (hanswer : ∀ e, call.failure? (cx.behind past) = some e ↔ result = .error e) :
    Traced.Follows cx past [request] ⟨[call], result⟩ where
  made := ⟨[request], List.prefix_rfl, .cons hask .nil⟩
  scope := fun signature scope h => hscope signature scope (List.mem_singleton.1 h).symm
  complete := by
    rintro a rfl
    refine ⟨.cons hask .nil, Context.noneFails_singleton.mpr (Option.eq_none_iff_forall_ne_some.mpr ?_)⟩
    intro e he
    cases (hanswer e).mp he
  stops := by
    intro before c after e hsplit hfail
    obtain ⟨rfl, rfl, rfl⟩ := cut_of_singleton hsplit
    rw [List.append_nil] at hfail
    exact ⟨rfl, (hanswer e).mp hfail⟩

theorem follows_askType (signature : String) :
    (askType signature (cx.behind past)).Follows cx past [.resolve signature] := by
  refine follows_single ⟨rfl, rfl⟩ ?_ fun e => Call.failure?_resolve
  rintro _ _ ⟨⟩
  rfl

theorem follows_askBuild {request : Request} {type : Class} {values : List (String × Live.Value Class)}
    (h : Asks cx past request (.build type values)) :
    (askBuild type values (cx.behind past)).Follows cx past [request] := by
  refine follows_single h ?_ fun e => Call.failure?_build
  rintro _ _ ⟨⟩

end Single

/-! ### trees -/

open Traced (Follows)

mutual

theorem follows_value (cx : Context) : ∀ (past : List Call) (depth : Nat) (v : Value),
    (v.materializeAt depth (cx.behind past)).Follows cx past v.requests
  | _, _, .literal _ => .of_no_calls _
  | _, _, .classLiteral signature => (follows_askType signature).map fun _ _ _ => .of_no_calls _
  | _, _, .enumConstant signature _ =>
    (follows_askType signature).map fun _ _ _ => .below rfl fun _ _ => .of_no_calls _
  | past, _, .nested node =>
    .below rfl fun d _ => (follows_node cx past d node).map fun _ _ _ => .of_no_calls _
  | past, _, .array elements =>
    .below rfl fun d _ => (follows_list cx past d elements).map fun _ _ _ => .of_no_calls _

theorem follows_list (cx : Context) : ∀ (past : List Call) (depth : Nat) (vs : List Value),
    (Value.materializeList depth vs (cx.behind past)).Follows cx past (Value.listRequests vs)
  | _, _, [] => .of_no_calls _
  | past, depth, v :: vs =>
    (follows_value cx past depth v).bind fun _ _ _ =>
      (follows_list cx _ depth vs).map fun _ _ _ => .of_no_calls _

theorem follows_node (cx : Context) : ∀ (past : List Call) (depth : Nat) (node : Node),
    (node.materializeAt depth (cx.behind past)).Follows cx past node.requests
  | _, _, .resolved _ => .of_no_calls _
  | past, depth, .descriptor signature attributes => by
    refine (follows_askType signature).bind fun calls type hasked => ?_
    obtain ⟨rfl, htype⟩ := askType_eq_ok_iff.mp hasked
    refine .below rfl fun c hc => ?_
    obtain rfl := classOf_eq_ok_iff.mp hc
    rw [Context.resolve_behind] at htype
    -- behind the question for the type there are the calls for the attributes, and nothing else
    have hentries := follows_entries cx (past ++ [.resolve signature cx.scope]) depth attributes
    refine hentries.bind fun calls values hvalues => follows_askBuild ⟨?_, ?_⟩
    · rw [hvalues] at hentries
      exact ⟨past, calls, List.append_assoc .., (hentries.complete values rfl).1.length_eq, htype⟩
    · exact names_materializeEntries (congrArg Traced.result hvalues)

theorem follows_entries (cx : Context) : ∀ (past : List Call) (depth : Nat)
    (attributes : List (String × Value)),
    (Value.materializeEntries depth attributes (cx.behind past)).Follows cx past
      (Value.entryRequests attributes)
  | _, _, [] => .of_no_calls _
  | past, depth, (_, v) :: rest =>
    (follows_value cx past depth v).bind fun _ _ _ =>
      (follows_entries cx _ depth rest).map fun _ _ _ => .of_no_calls _

end

/-- **Every materialization makes the calls of its tree in order, on behalf of its scope, up to the first
failure, and gives a result only when all of them have succeeded**, whatever the collaborators remember. -/
theorem materialization_follows_requests (cx : Context) :
    (∀ v : Value, (v.trace cx).Follows cx [] v.requests) ∧
      ∀ node : Node, (node.trace cx).Follows cx [] node.requests :=
  ⟨follows_value cx [] 0, follows_node cx [] 0⟩

/-- A resolver that answers once: it is asked again for the same type, and then no more. -/
example :
    let mark := Class.named .annotationInterface "Mark"
    let cx : Context := {
      scope := mark
      resolve := fun past name _ =>
        if past.isEmpty then .ok (.classType mark) else .error (.classNotFound name)
      build := fun _ c _ => .ok ⟨c, []⟩
      maxDepth := 1 }
    let marks : Value := .array [.classLiteral "LMark;", .classLiteral "LMark;", .classLiteral "LMark;"]
    marks.trace cx = ⟨[.resolve "LMark;" mark, .resolve "LMark;" mark],
      .error (.resolution (.classNotFound "LMark;"))⟩ := rfl

end ClassMetadata.Deferred
