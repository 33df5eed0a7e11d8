import ClassMetadata.NameSet
import ClassMetadata.Environment

/-!
# Module descriptors

A module with its directives: the modules it requires, the packages it exports and opens, the services it
uses and provides.  Every directive carries deferred annotations.

* `Descriptor.directives`: all directives, by kind and within a kind in the order they were given;
* `Descriptor.annotations`, `Descriptor.materialize`: their annotations one after the other, deferred and
  live;
* `Descriptor.same`: equality, annotations being compared as deferred trees.

Modifiers are kept without repetition in the order in which their types list them.
-/

namespace ClassMetadata.Module

open Deferred (Node Context)

/-! ### modifiers -/

inductive ModuleModifier
  /-- every package is open -/
  | opened
  /-- made from a plain archive -/
  | automatic
  | synthetic
  | mandated
  deriving DecidableEq, Repr

inductive RequiresModifier
  | transitive
  /-- needed to compile only -/
  | compileTime
  | synthetic
  | mandated
  deriving DecidableEq, Repr

inductive PackageModifier
  | synthetic
  | mandated
  deriving DecidableEq, Repr

namespace ModuleModifier

def all : List ModuleModifier := [opened, automatic, synthetic, mandated]

def word : ModuleModifier → String
  | opened => "open" | automatic => "automatic" | synthetic => "synthetic" | mandated => "mandated"

end ModuleModifier

namespace RequiresModifier

def all : List RequiresModifier := [transitive, compileTime, synthetic, mandated]

def word : RequiresModifier → String
  | transitive => "transitive" | compileTime => "static" | synthetic => "synthetic" | mandated => "mandated"

end RequiresModifier

namespace PackageModifier

def all : List PackageModifier := [synthetic, mandated]

def word : PackageModifier → String
  | synthetic => "synthetic" | mandated => "mandated"

end PackageModifier

/-! ### directives -/

structure Requires where
  modifiers : List RequiresModifier
  name : String
  /-- the version seen when the module was compiled, as it stands -/
  version : Option String
  annotations : List Node

/-- A package that is exported or opened: to the target modules, or to all if there is none. -/
structure PackageAccess where
  modifiers : List PackageModifier
  package : String
  targets : NameSet
  annotations : List Node

structure Uses where
  service : String
  annotations : List Node

structure Provides where
  service : String
  providers : List String
  annotations : List Node

def Requires.isTransitive (d : Requires) : Bool := d.modifiers.contains .transitive

/-- Whether the access is for named modules only. -/
def PackageAccess.isQualified (d : PackageAccess) : Bool := !d.targets.isEmpty

/-- The directive as source text, the version in parentheses. -/
def Requires.text (d : Requires) : String :=
  "requires " ++ String.join (d.modifiers.map fun m => m.word ++ " ") ++ d.name ++
    match d.version with
    | some v => " (@" ++ v ++ ")"
    | none => ""

inductive Directive
  | requires (d : Requires)
  | exports (d : PackageAccess)
  | opens (d : PackageAccess)
  | uses (d : Uses)
  | provides (d : Provides)

namespace Directive

def annotations : Directive → List Node
  | requires d => d.annotations
  | exports d => d.annotations
  | opens d => d.annotations
  | uses d => d.annotations
  | provides d => d.annotations

/-- The live annotations of a directive, up to the first failure. -/
def materialize (cx : Context) (d : Directive) : Except MaterializeError (List (Live.Annotation Class)) :=
  Node.materializeAll cx d.annotations

end Directive

/-! ### descriptors -/

structure Descriptor where
  name : String
  modifiers : List ModuleModifier
  version : Option String
  mainClass : Option String
  requires : List Requires
  exports : List PackageAccess
  opens : List PackageAccess
  uses : List Uses
  provides : List Provides
  packages : NameSet

namespace Descriptor

def isOpen (m : Descriptor) : Bool := m.modifiers.contains .opened

def isAutomatic (m : Descriptor) : Bool := m.modifiers.contains .automatic

/-- The directive that requires a module. -/
def findRequires (m : Descriptor) (name : String) : Option Requires :=
  m.requires.find? fun d => d.name == name

/-- All directives: requires, exports, opens, uses, provides. -/
def directives (m : Descriptor) : List Directive :=
  m.requires.map .requires ++ m.exports.map .exports ++ m.opens.map .opens ++ m.uses.map .uses ++
    m.provides.map .provides

/-- The annotations of all directives, kind by kind. -/
def annotations (m : Descriptor) : List Node :=
  m.requires.flatMap Requires.annotations ++ m.exports.flatMap PackageAccess.annotations ++
    m.opens.flatMap PackageAccess.annotations ++ m.uses.flatMap Uses.annotations ++
    m.provides.flatMap Provides.annotations

/-- The live annotations of all directives, up to the first failure. -/
def materialize (cx : Context) (m : Descriptor) : Except MaterializeError (List (Live.Annotation Class)) :=
  Node.materializeAll cx m.annotations

end Descriptor

/-! ### equality -/

def Requires.same (d e : Requires) : Bool :=
  d.modifiers == e.modifiers && d.name == e.name && d.version == e.version &&
    Node.sameAll d.annotations e.annotations

def PackageAccess.same (d e : PackageAccess) : Bool :=
  d.modifiers == e.modifiers && d.package == e.package && d.targets == e.targets &&
    Node.sameAll d.annotations e.annotations

def Uses.same (d e : Uses) : Bool := d.service == e.service && Node.sameAll d.annotations e.annotations

def Provides.same (d e : Provides) : Bool :=
  d.service == e.service && d.providers == e.providers && Node.sameAll d.annotations e.annotations

def Directive.same : Directive → Directive → Bool
  | requires d, requires e => d.same e
  | exports d, exports e => d.same e
  | opens d, opens e => d.same e
  | uses d, uses e => d.same e
  | provides d, provides e => d.same e
  | _, _ => false

/-- Equality of lists of directives, place by place. -/
def Directive.sameAll : List Directive → List Directive → Bool
  | [], [] => true
  | d :: ds, e :: es => d.same e && sameAll ds es
  | _, _ => false

def Descriptor.same (m n : Descriptor) : Bool :=
  m.name == n.name && m.modifiers == n.modifiers && m.version == n.version &&
    m.mainClass == n.mainClass && Directive.sameAll m.directives n.directives && m.packages == n.packages

end ClassMetadata.Module
