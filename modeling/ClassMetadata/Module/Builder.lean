import ClassMetadata.Module.Descriptor
import ClassMetadata.QualifiedName

/-!
# Building module descriptors

A descriptor is built step by step, each step changing the builder in place.  A step is checked: in a strict
builder every name must be a qualified name, a module does not require itself, and no two directives of one
kind are about the same thing.

* `Builder.Change`: a change in place, which an error can end on the way;
* `Builder.requires`, `Builder.exports`, …: one change for each kind of step;
* `Operation`, `Builder.perform`: the steps as data, with the builder that a step leaves behind whether it
  succeeds or not.

Most steps have made all their checks when they begin to change the builder.  `packages` checks each name
when its turn comes, so a bad one leaves the names in front of it put in.
-/

namespace ClassMetadata.Module

open Deferred (Node)

/-! ### errors -/

/-- What a checked name stands for. -/
inductive NameKind
  | module | package | service | provider | mainClass
  deriving DecidableEq, Repr

def NameKind.word : NameKind → String
  | module => "module" | package => "package" | service => "service" | provider => "provider"
  | mainClass => "class"

inductive BuilderError
  | invalidName (kind : NameKind) (name : String)
  | duplicateRequires (name : String)
  | duplicateExports (package : String)
  | duplicateOpens (package : String)
  | duplicateUses (service : String)
  | duplicateProvides (service : String)
  | emptyProviders (service : String)
  | selfRequires (name : String)
  deriving DecidableEq, Repr

def BuilderError.message : BuilderError → String
  | invalidName kind name => quoteString name ++ " is not a valid " ++ kind.word ++ " name"
  | duplicateRequires name => "Dependence upon " ++ name ++ " already declared"
  | duplicateExports package => "Exported package " ++ package ++ " already declared"
  | duplicateOpens package => "Opened package " ++ package ++ " already declared"
  | duplicateUses service => "Dependence upon service " ++ service ++ " already declared"
  | duplicateProvides service => "Providers of service " ++ service ++ " already declared"
  | emptyProviders service => "Empty providers set for service " ++ service
  | selfRequires name => "Dependence on self " ++ name

/-! ### builders -/

inductive DirectiveKind
  | requires | exports | opens | uses | provides
  deriving DecidableEq, Repr

/-- What is said when two directives of a kind are about one name. -/
def DirectiveKind.duplicate : DirectiveKind → String → BuilderError
  | requires => .duplicateRequires
  | exports => .duplicateExports
  | opens => .duplicateOpens
  | uses => .duplicateUses
  | provides => .duplicateProvides

/-- A descriptor in the making, and whether names are checked. -/
structure Builder where
  strict : Bool
  draft : Descriptor
  /-- the names that directives are about, kept apart by kind -/
  declared : DirectiveKind → NameSet

namespace Builder

/-- The given modifiers in the order of `all`. -/
def inOrder {α : Type} [BEq α] (all given : List α) : List α := all.filter given.contains

/-- Whether a name may be used for something. -/
def isValid (kind : NameKind) (name : String) : Bool :=
  match kind with
  | .package => isPackageName name
  | _ => isQualifiedName name

/-- Refuses a bad name in a strict builder. -/
def check (strict : Bool) (kind : NameKind) (name : String) : Except BuilderError Unit :=
  if strict && !isValid kind name then .error (.invalidName kind name) else .ok ()

/-- Checks names up to the first bad one. -/
def checkAll (strict : Bool) (kind : NameKind) : List String → Except BuilderError Unit
  | [] => .ok ()
  | name :: rest => do
    check strict kind name
    checkAll strict kind rest

/-- A step is refused for a reason if the reason holds. -/
def refuseIf (condition : Bool) (e : BuilderError) : Except BuilderError Unit :=
  if condition then .error e else .ok ()

/-- A builder for a module without directives. -/
def fresh (name : String) (strict : Bool) (modifiers : List ModuleModifier) : Builder :=
  ⟨strict, ⟨name, inOrder ModuleModifier.all modifiers, none, none, [], [], [], [], [], ∅⟩, fun _ => ∅⟩

/-- A builder for a module, whose name is checked. -/
def new (name : String) (strict : Bool) (modifiers : List ModuleModifier) : Except BuilderError Builder := do
  check strict .module name
  return fresh name strict modifiers

/-- The declared names with one more, for one kind of directives. -/
def declare (declared : DirectiveKind → NameSet) (kind : DirectiveKind) (name : String) :
    DirectiveKind → NameSet :=
  fun k => if k = kind then (declared kind).insert name else declared k

theorem mem_declare {declared : DirectiveKind → NameSet} {kind k : DirectiveKind} {name n : String} :
    n ∈ declare declared kind name k ↔ (k = kind ∧ n = name) ∨ n ∈ declared k := by
  unfold declare
  by_cases h : k = kind
  · subst h
    simp [NameSet.mem_insert]
  · simp [h]

/-- A name that is declared again changes nothing. -/
theorem declare_of_mem {declared : DirectiveKind → NameSet} {kind : DirectiveKind} {name : String}
    (h : name ∈ declared kind) : declare declared kind name = declared := by
  funext k
  unfold declare
  split
  · rename_i hk
    rw [hk, NameSet.insert_of_mem h]
  · rfl

/-- A change in place.  An error ends it, and what has been changed before the error stays changed. -/
abbrev Change := ExceptT BuilderError (StateM Builder)

/-- Declares a name for a kind of directives, unless one of them is about it already. -/
def claim (kind : DirectiveKind) (name : String) : Change Unit := do
  let b ← get
  set { b with declared := declare b.declared kind name }
  refuseIf ((b.declared kind).contains name) (kind.duplicate name)

/-- The packages so far. -/
def packageSet (b : Builder) : NameSet := b.draft.packages

/-- The packages with those of some classes. -/
def withPackagesOf (packages : NameSet) (classes : List String) : NameSet :=
  packages.insertAll (classes.filterMap packageOf?)

def requires (modifiers : List RequiresModifier) (name : String) (version : Option String)
    (annotations : List Node) : Change Unit := do
  let b ← get
  check b.strict .module name
  refuseIf (name == b.draft.name) (.selfRequires name)
  claim .requires name
  let d : Requires := ⟨inOrder RequiresModifier.all modifiers, name, version, annotations⟩
  modify fun b => { b with draft := { b.draft with requires := b.draft.requires ++ [d] } }

/-- The access that a directive of some kind gives to a package, with the package declared and put into
the module. -/
def grant (kind : DirectiveKind) (modifiers : List PackageModifier) (package : String)
    (targets : List String) (annotations : List Node) : Change PackageAccess := do
  let b ← get
  check b.strict .package package
  checkAll b.strict .module targets
  claim kind package
  modify fun b => { b with draft := { b.draft with packages := b.draft.packages.insert package } }
  return ⟨inOrder PackageModifier.all modifiers, package, .ofList targets, annotations⟩

def exports (modifiers : List PackageModifier) (package : String) (targets : List String)
    (annotations : List Node) : Change Unit := do
  let d ← grant .exports modifiers package targets annotations
  modify fun b => { b with draft := { b.draft with exports := b.draft.exports ++ [d] } }

def opens (modifiers : List PackageModifier) (package : String) (targets : List String)
    (annotations : List Node) : Change Unit := do
  let d ← grant .opens modifiers package targets annotations
  modify fun b => { b with draft := { b.draft with opens := b.draft.opens ++ [d] } }

def uses (service : String) (annotations : List Node) : Change Unit := do
  let b ← get
  check b.strict .service service
  claim .uses service
  modify fun b => { b with draft := { b.draft with uses := b.draft.uses ++ [⟨service, annotations⟩] } }

/-- The packages of the providers join those of the module. -/
def provides (service : String) (providers : List String) (annotations : List Node) : Change Unit := do
  let b ← get
  check b.strict .service service
  refuseIf providers.isEmpty (.emptyProviders service)
  checkAll b.strict .provider providers
  claim .provides service
  modify fun b =>
    { b with draft := { b.draft with packages := withPackagesOf b.draft.packages providers } }
  modify fun b =>
    { b with draft := { b.draft with provides := b.draft.provides ++ [⟨service, providers, annotations⟩] } }

/-- Adds packages up to the first bad name, which is the error. -/
def packages : List String → Change Unit
  | [] => pure ()
  | name :: rest => do
    let b ← get
    check b.strict .package name
    set { b with draft := { b.draft with packages := b.draft.packages.insert name } }
    packages rest

def version (text : String) : Change Unit :=
  modify fun b => { b with draft := { b.draft with version := some text } }

/-- The package of the class joins those of the module. -/
def mainClass (name : String) : Change Unit := do
  let b ← get
  check b.strict .mainClass name
  modify fun b =>
    { b with draft := { b.draft with packages := withPackagesOf b.draft.packages [name] } }
  modify fun b => { b with draft := { b.draft with mainClass := some name } }

/-- The descriptor that is built. -/
def build (b : Builder) : Descriptor := b.draft

end Builder

/-! ### steps as data -/

inductive Operation
  | requires (modifiers : List RequiresModifier) (name : String) (version : Option String)
      (annotations : List Node)
  | exports (modifiers : List PackageModifier) (package : String) (targets : List String)
      (annotations : List Node)
  | opens (modifiers : List PackageModifier) (package : String) (targets : List String)
      (annotations : List Node)
  | uses (service : String) (annotations : List Node)
  | provides (service : String) (providers : List String) (annotations : List Node)
  | packages (names : List String)
  | version (text : String)
  | mainClass (name : String)

/-- The change that a step makes. -/
def Operation.change : Operation → Builder.Change Unit
  | .requires modifiers name compiled annotations => Builder.requires modifiers name compiled annotations
  | .exports modifiers package targets annotations => Builder.exports modifiers package targets annotations
  | .opens modifiers package targets annotations => Builder.opens modifiers package targets annotations
  | .uses service annotations => Builder.uses service annotations
  | .provides service providers annotations => Builder.provides service providers annotations
  | .packages names => Builder.packages names
  | .version text => Builder.version text
  | .mainClass name => Builder.mainClass name

namespace Builder

/-- Takes a step: the builder behind it, and the error if it fails. -/
def perform (b : Builder) (step : Operation) : Builder × Option BuilderError :=
  match step.change.run.run b with
  | (.ok (), after) => (after, none)
  | (.error e, after) => (after, some e)

/-- Takes steps one after the other, going on behind those that fail. -/
def performAll (b : Builder) (steps : List Operation) : Builder :=
  steps.foldl (fun b step => (b.perform step).1) b

end Builder

end ClassMetadata.Module
