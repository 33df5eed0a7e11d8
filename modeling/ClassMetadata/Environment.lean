import ClassMetadata.Deferred.Materialization
import ClassMetadata.Settings

/-!
# Environments

What materialization happens in: a registry, in which signatures are resolved, and the settings.
Annotations are built as their classes declare.
-/

namespace ClassMetadata

structure Environment where
  registry : Registry
  settings : Settings

namespace Environment

/-- An environment with standard settings. -/
def ofRegistry (r : Registry) : Environment := ⟨r, .standard⟩

/-- Materialization on behalf of a class.  Registry and construction have no state. -/
def context (env : Environment) (scope : Class) : Deferred.Context where
  scope := scope
  resolve := fun _ => env.registry.resolve
  build := fun _ => Class.construct
  maxDepth := env.settings.maxDepth

theorem steady_context (env : Environment) (scope : Class) : (env.context scope).Steady := fun _ => rfl

def materialize (env : Environment) (node : Deferred.Node) (scope : Class) :
    Except MaterializeError (Live.Annotation Class) :=
  node.materialize (env.context scope)

/-- Materializes nodes in order, up to the first failure. -/
def materializeAll (env : Environment) (nodes : List Deferred.Node) (scope : Class) :
    Except MaterializeError (List (Live.Annotation Class)) :=
  Deferred.Node.materializeAll (env.context scope) nodes

end Environment

end ClassMetadata
