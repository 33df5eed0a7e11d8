import ClassMetadata.Environment

/-!
# Workspaces

Classes and annotations are plain values here, so two of them cannot be told apart when they agree in
everything.  A workspace adds the difference: it numbers what it makes, a class by the registration and an
annotation by the materialization that made it.

* `Tracked`: a value with its number; `Tracked.isSame` says whether two are one and the same;
* `Workspace.register`, `Workspace.classNamed`: classes with their numbers;
* `Workspace.materialize`: a new annotation has a new number, a node that was live already keeps the
  number of its annotation.
-/

namespace ClassMetadata

/-- A value with the number of the act that made it. -/
structure Tracked (α : Type) where
  serial : Nat
  value : α

/-- Whether two values are one and the same, not only equal. -/
def Tracked.isSame {α β : Type} (a : Tracked α) (b : Tracked β) : Bool := a.serial == b.serial

/-- A node, and the number of the annotation in it if it is live already. -/
structure TrackedNode where
  node : Deferred.Node
  serial? : Option Nat

/-- A node for a live annotation. -/
def TrackedNode.ofLive (a : Tracked (Live.Annotation Class)) : TrackedNode :=
  ⟨.resolved a.value, some a.serial⟩

structure Workspace where
  environment : Environment
  /-- the numbers of the registered classes by name -/
  serials : List (String × Nat)
  /-- the next number to give out -/
  next : Nat

namespace Workspace

/-- Gives a value a number of its own. -/
def track {α : Type} (w : Workspace) (value : α) : Tracked α × Workspace :=
  (⟨w.next, value⟩, { w with next := w.next + 1 })

/-- Registers a class in the place of an older one of its name. -/
def register (w : Workspace) (c : Class) : Tracked Class × Workspace :=
  let (tracked, w) := w.track c
  (tracked, { w with
    environment := { w.environment with registry := w.environment.registry.register c }
    serials := Entries.insert c.name tracked.serial w.serials })

/-- Begins with a new registry, empty or with the core classes, and standard settings. -/
def renew (w : Workspace) (core : Bool) : Workspace :=
  let fresh : Workspace := { w with environment := .ofRegistry .empty, serials := [] }
  if core then Registry.coreClasses.foldl (fun w c => (w.register c).2) fresh else fresh

/-- A workspace with nothing made in it. -/
def start (core : Bool) : Workspace := renew ⟨.ofRegistry .empty, [], 0⟩ core

/-- The class registered under a name, or else a new plain class that is not registered. -/
def classNamed (w : Workspace) (name : String) : Tracked Class × Workspace :=
  match w.environment.registry.lookup name, w.serials.lookup name with
  | some c, some serial => (⟨serial, c⟩, w)
  | some c, none => w.track c
  | none, _ => w.track (.named .plain name)

/-- Materializes a node on behalf of a class. -/
def materialize (w : Workspace) (node : TrackedNode) (scope : Class) :
    Except MaterializeError (Tracked (Live.Annotation Class)) × Workspace :=
  match w.environment.materialize node.node scope, node.serial? with
  | .error e, _ => (.error e, w)
  | .ok a, some serial => (.ok ⟨serial, a⟩, w)
  | .ok a, none =>
    let (tracked, w) := w.track a
    (.ok tracked, w)

/-- Materializes nodes in order, up to the first failure. -/
def materializeAll (w : Workspace) (nodes : List TrackedNode) (scope : Class) :
    Except MaterializeError (List (Tracked (Live.Annotation Class))) × Workspace :=
  match nodes with
  | [] => (.ok [], w)
  | node :: rest =>
    match w.materialize node scope with
    | (.error e, w) => (.error e, w)
    | (.ok a, w) =>
      match materializeAll w rest scope with
      | (.error e, w) => (.error e, w)
      | (.ok as, w) => (.ok (a :: as), w)

end Workspace

end ClassMetadata
