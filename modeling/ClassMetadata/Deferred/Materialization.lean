import ClassMetadata.Deferred.Node
import ClassMetadata.Resolution
import ClassMetadata.Live.Construction

/-!
# Materialization

A deferred tree becomes live with the help of two collaborators: one resolves signatures on behalf of a
scope, one builds annotations from a class and named values.  Both may keep a state, so an answer may depend
on the calls made before it.  A `Context` holds them, the scope and the depth to which annotations and arrays
may nest; `cx.behind calls` is the context once these calls have been made.

Everything happens from left to right, and the first failure ends it:

* a literal is what it is; a class literal is its resolved type;
* an enum constant resolves to a plain class type of an enum that has the constant;
* the type of an annotation is resolved, its attributes are materialized in order, then it is built;
* each annotation or array inside another value is one level deeper, and too deep a one is refused before
  anything is done for it.

The calls are part of the outcome (`Traced`): the result of a materialization, and what its collaborators
were asked on the way.  An `Asking` is something done in a context, and what comes second in it is done behind
the calls of what comes first.
-/

namespace ClassMetadata

inductive MaterializeError
  | resolution (cause : ResolveError)
  | enumConstantNotFound (enum constant : String)
  /-- an enum constant of a type that is no enum -/
  | notAnEnum (found : String)
  /-- an annotation of a type that is no class -/
  | notAClass (found : String)
  | construction (cause : AttributeError)
  | depthLimitExceeded (limit : Nat)
  deriving DecidableEq, Repr

def MaterializeError.message : MaterializeError → String
  | resolution cause => cause.message
  | enumConstantNotFound enum constant => "Enum constant " ++ constant ++ " not found in " ++ enum
  | notAnEnum found => found ++ " is not an enum type"
  | notAClass found => found ++ " is not an annotation type"
  | construction cause => cause.message
  | depthLimitExceeded limit => "Annotation nesting exceeds the depth limit of " ++ toString limit

namespace Deferred

/-! ### collaborators and their calls -/

/-- A question to a collaborator. -/
inductive Call
  | resolve (signature : String) (scope : Class)
  | build (type : Class) (values : List (String × Live.Value Class))

/-- What a materialization works with.  The collaborators answer a question behind the calls made so far,
which they may remember. -/
structure Context where
  scope : Class
  resolve : List Call → String → Class → Except ResolveError (ResolvedType Class)
  build : List Call → Class → List (String × Live.Value Class) →
    Except AttributeError (Live.Annotation Class)
  maxDepth : Nat

namespace Context

/-- The context when some calls have been made. -/
def behind (cx : Context) (calls : List Call) : Context :=
  { cx with
    resolve := fun later => cx.resolve (calls ++ later)
    build := fun later => cx.build (calls ++ later) }

theorem maxDepth_behind (cx : Context) (calls : List Call) : (cx.behind calls).maxDepth = cx.maxDepth := rfl

theorem behind_behind (cx : Context) (calls later : List Call) :
    (cx.behind calls).behind later = cx.behind (calls ++ later) := by
  simp only [behind, List.append_assoc]

theorem resolve_behind (cx : Context) (calls : List Call) :
    (cx.behind calls).resolve [] = cx.resolve calls :=
  congrArg cx.resolve (List.append_nil calls)

theorem build_behind (cx : Context) (calls : List Call) : (cx.behind calls).build [] = cx.build calls :=
  congrArg cx.build (List.append_nil calls)

/-- Collaborators without a state: calls have no effect on the answers to later ones. -/
def Steady (cx : Context) : Prop := ∀ calls, cx.behind calls = cx

end Context

/-- An outcome together with the calls that led to it, in order. -/
structure Traced (α : Type) where
  calls : List Call
  result : Except MaterializeError α

/-- What is done in a context, with calls to its collaborators. -/
def Asking (α : Type) := Context → Traced α

namespace Asking

variable {α β γ : Type} {cx : Context} {calls : List Call}

/-- An outcome without calls. -/
def ofResult (result : Except MaterializeError α) : Asking α := fun _ => ⟨[], result⟩

/-- Goes on with a result, behind the calls made for it; a failure stays. -/
def andThen (x : Asking α) (f : α → Asking β) : Asking β := fun cx =>
  match x cx with
  | ⟨calls, .ok a⟩ => ⟨calls ++ (f a (cx.behind calls)).calls, (f a (cx.behind calls)).result⟩
  | ⟨calls, .error e⟩ => ⟨calls, .error e⟩

instance : Monad Asking where
  pure a := ofResult (.ok a)
  bind := andThen

theorem result_pure (a : α) : ((pure a : Asking α) cx).result = .ok a := rfl

theorem bind_of_ok {x : Asking α} {a : α} (h : x cx = ⟨calls, .ok a⟩) (f : α → Asking β) :
    (x >>= f) cx = ⟨calls ++ (f a (cx.behind calls)).calls, (f a (cx.behind calls)).result⟩ := by
  change andThen x f cx = _
  simp only [andThen, h]

theorem bind_of_error {x : Asking α} {e : MaterializeError} (h : x cx = ⟨calls, .error e⟩)
    (f : α → Asking β) : (x >>= f) cx = ⟨calls, .error e⟩ := by
  change andThen x f cx = _
  simp only [andThen, h]

/-- A result of two parts comes from a result of the first. -/
theorem result_bind_eq_ok {x : Asking α} {f : α → Asking β} {b : β} :
    ((x >>= f) cx).result = .ok b ↔
      ∃ calls a, x cx = ⟨calls, .ok a⟩ ∧ (f a (cx.behind calls)).result = .ok b := by
  rcases hx : x cx with ⟨calls, e | a⟩
  · simp [bind_of_error hx]
  · rw [bind_of_ok hx]
    constructor
    · intro h
      exact ⟨calls, a, rfl, h⟩
    · rintro ⟨_, _, ⟨⟩, h⟩
      exact h

/-- Without a state the second part is done in the same context. -/
theorem result_bind_of_steady (h : cx.Steady) (x : Asking α) (f : α → Asking β) :
    ((x >>= f) cx).result = (x cx).result >>= fun a => (f a cx).result := by
  rcases hx : x cx with ⟨calls, e | a⟩
  · rw [bind_of_error hx]
    rfl
  · rw [bind_of_ok hx, h calls]
    rfl

theorem result_bind_eq_ok_of_steady (h : cx.Steady) {x : Asking α} {f : α → Asking β} {b : β} :
    ((x >>= f) cx).result = .ok b ↔ ∃ a, (x cx).result = .ok a ∧ (f a cx).result = .ok b := by
  rw [result_bind_of_steady h]
  cases (x cx).result <;> simp [Bind.bind, Except.bind]

theorem map_id (x : Asking α) : id <$> x = x := by
  funext cx
  change (x >>= pure) cx = x cx
  rcases hx : x cx with ⟨calls, e | a⟩
  · exact bind_of_error hx _
  · rw [bind_of_ok hx]
    exact congrArg (Traced.mk · _) (List.append_nil calls)

theorem bind_assoc (x : Asking α) (f : α → Asking β) (g : β → Asking γ) :
    x >>= f >>= g = x >>= fun a => f a >>= g := by
  funext cx
  rcases hx : x cx with ⟨calls, e | a⟩
  · rw [bind_of_error (bind_of_error hx f), bind_of_error hx]
  · rw [bind_of_ok hx]
    rcases hf : f a (cx.behind calls) with ⟨later, e | b⟩
    · rw [bind_of_error hf]
      exact bind_of_error ((bind_of_ok hx f).trans (by rw [hf])) g
    · rw [bind_of_ok hf, Context.behind_behind, ← List.append_assoc]
      exact bind_of_ok ((bind_of_ok hx f).trans (by rw [hf])) g

instance : LawfulMonad Asking := .mk' Asking map_id (fun _ _ => rfl) bind_assoc

end Asking

/-- Asks for the type of a signature. -/
def askType (signature : String) : Asking (ResolvedType Class) := fun cx =>
  ⟨[.resolve signature cx.scope], (cx.resolve [] signature cx.scope).mapError .resolution⟩

/-- Asks for an annotation to be built. -/
def askBuild (type : Class) (values : List (String × Live.Value Class)) :
    Asking (Live.Annotation Class) := fun cx =>
  ⟨[.build type values], (cx.build [] type values).mapError .construction⟩

/-- One level below `depth`. -/
def descend (depth : Nat) : Asking Nat := fun cx =>
  ⟨[], if cx.maxDepth < depth + 1 then .error (.depthLimitExceeded cx.maxDepth) else .ok (depth + 1)⟩

namespace Context

/-- The enum that a type is. -/
def enumOf (type : ResolvedType Class) : Except MaterializeError Class :=
  match type with
  | .classType c => if c.isEnum then .ok c else .error (.notAnEnum c.name)
  | other => .error (.notAnEnum other.text)

/-- The class of an annotation type. -/
def classOf (type : ResolvedType Class) : Except MaterializeError Class :=
  match type with
  | .classType c => .ok c
  | other => .error (.notAClass other.text)

/-- A constant of an enum. -/
def constantOf (enum : Class) (constant : String) : Except MaterializeError (Live.Value Class) :=
  match enum.ordinal? constant with
  | some i => .ok (.enumConstant enum constant i)
  | none => .error (.enumConstantNotFound enum.name constant)

end Context

/-! ### trees -/

mutual

/-- Materializes a value that has `depth` annotations and arrays around it. -/
def Value.materializeAt (depth : Nat) : Value → Asking (Live.Value Class)
  | .literal c => pure (.literal c)
  | .classLiteral signature => do return .classLiteral (← askType signature)
  | .enumConstant signature constant => do
    let enum ← .ofResult (Context.enumOf (← askType signature))
    .ofResult (Context.constantOf enum constant)
  | .nested node => do
    let depth ← descend depth
    return .nested (← node.materializeAt depth)
  | .array elements => do
    let depth ← descend depth
    return .array (← Value.materializeList depth elements)

def Value.materializeList (depth : Nat) : List Value → Asking (List (Live.Value Class))
  | [] => pure []
  | v :: vs => do
    let live ← v.materializeAt depth
    return live :: (← Value.materializeList depth vs)

/-- Materializes a node; its attributes are as deep as the node. -/
def Node.materializeAt (depth : Nat) : Node → Asking (Live.Annotation Class)
  | .resolved a => pure a
  | .descriptor signature attributes => do
    let type ← .ofResult (Context.classOf (← askType signature))
    askBuild type (← Value.materializeEntries depth attributes)

def Value.materializeEntries (depth : Nat) :
    List (String × Value) → Asking (List (String × Live.Value Class))
  | [] => pure []
  | (name, v) :: rest => do
    let live ← v.materializeAt depth
    return (name, live) :: (← Value.materializeEntries depth rest)

end

/-- The live value of a deferred one, with the calls made for it. -/
def Value.trace (cx : Context) (v : Value) : Traced (Live.Value Class) := v.materializeAt 0 cx

/-- The live value of a deferred one. -/
def Value.materialize (cx : Context) (v : Value) : Except MaterializeError (Live.Value Class) :=
  (v.trace cx).result

/-- The live annotation of a node, with the calls made for it. -/
def Node.trace (cx : Context) (node : Node) : Traced (Live.Annotation Class) := node.materializeAt 0 cx

/-- The live annotation of a node. -/
def Node.materialize (cx : Context) (node : Node) : Except MaterializeError (Live.Annotation Class) :=
  (node.trace cx).result

/-- Materializes several nodes, one behind the other. -/
def Node.materializeEach (nodes : List Node) : Asking (List (Live.Annotation Class)) :=
  nodes.mapM (Node.materializeAt 0)

/-- The live annotations of several nodes, up to the first failure. -/
def Node.materializeAll (cx : Context) (nodes : List Node) :
    Except MaterializeError (List (Live.Annotation Class)) :=
  (Node.materializeEach nodes cx).result

end Deferred

end ClassMetadata
