import ClassMetadata.Registry
import ClassMetadata.Live.Text
import ClassMetadata.Signature.Reader

/-!
# From signatures to types

Resolving a signature on behalf of a class, the *scope*: class names are looked up in a registry, type
variables in the scope and the classes around it.

* A class without type arguments is looked up by the binary name of its whole path.
* With arguments anywhere on the path, the class of every segment is looked up, outermost first, its
  arguments right after it; the type of each segment is the owner of the next one.  A first segment
  without arguments is a plain class, every other segment a parameterized type.
* A bound makes a wildcard.
-/

namespace ClassMetadata

inductive ResolveError
  | malformed (text : String) (cause : SignatureError)
  | classNotFound (name : String)
  | typeVariableNotFound (name scope : String)
  deriving DecidableEq, Repr

def ResolveError.message : ResolveError → String
  | malformed text cause => "Malformed type signature '" ++ text ++ "': " ++ cause.message
  | classNotFound name => "Class not found: " ++ name
  | typeVariableNotFound name scope => "Type variable " ++ name ++ " is not in scope of " ++ scope

namespace Registry

/-- The class registered under a name, or the error that there is none. -/
def find (r : Registry) (name : String) : Except ResolveError Class :=
  match r.lookup name with
  | some c => .ok c
  | none => .error (.classNotFound name)

/-- A type variable as the innermost class around the scope declares it. -/
def findVariable (r : Registry) (scope : Class) (name : String) : Except ResolveError (ResolvedType Class) :=
  match (r.enclosingChain scope).find? fun c => c.declares name with
  | some c => .ok (.typeVariable name c)
  | none => .error (.typeVariableNotFound name scope.name)

/-- The binary name of a class behind the binary name of the one around it. -/
def nameInside (outer : Option String) (name : String) : String :=
  match outer with
  | none => dotted name
  | some outer => outer ++ "$" ++ name

/-- The type of a segment from its class, its arguments and the type around it. -/
def segmentType (raw : Class) (arguments : List (ResolvedType Class)) (owner : Option (ResolvedType Class)) :
    ResolvedType Class :=
  if owner.isNone && arguments.isEmpty then .classType raw else .parameterized raw arguments owner

mutual

def resolveTree (r : Registry) (scope : Class) : Signature → Except ResolveError (ResolvedType Class)
  | .base t => .ok (.primitive t)
  | .void => .ok .void
  | .array component => do return .array (← r.resolveTree scope component)
  | .typeVariable name => r.findVariable scope name
  | .classType path =>
    if isParameterized path then r.resolvePath scope none none path
    else do return .classType (← r.find (binaryName path))

/-- The type of the last segment of a path behind the class `outer` and its type `owner`. -/
def resolvePath (r : Registry) (scope : Class) (outer : Option String) (owner : Option (ResolvedType Class)) :
    List Segment → Except ResolveError (ResolvedType Class)
  | [] => owner.elim (.error (.classNotFound "")) .ok
  | ⟨name, arguments⟩ :: rest => do
    let full := nameInside outer name
    let raw ← r.find full
    let arguments ← r.resolveArguments scope arguments
    r.resolvePath scope (some full) (some (segmentType raw arguments owner)) rest

def resolveArgument (r : Registry) (scope : Class) :
    TypeArgument → Except ResolveError (ResolvedType Class)
  | .unbounded => .ok (.wildcard [] [])
  | .exactly t => r.resolveTree scope t
  | .upperBound t => do return .wildcard [← r.resolveTree scope t] []
  | .lowerBound t => do return .wildcard [] [← r.resolveTree scope t]

def resolveArguments (r : Registry) (scope : Class) :
    List TypeArgument → Except ResolveError (List (ResolvedType Class))
  | [] => .ok []
  | argument :: rest => do
    let t ← r.resolveArgument scope argument
    return t :: (← r.resolveArguments scope rest)

end

/-- Reads a signature and resolves it. -/
def resolve (r : Registry) (text : String) (scope : Class) : Except ResolveError (ResolvedType Class) :=
  match Signature.parse text with
  | .ok t => r.resolveTree scope t
  | .error e => .error (.malformed text e)

end Registry

end ClassMetadata
