import ClassMetadata.Proofs.Module.Steps
import ClassMetadata.Proofs.QualifiedName

/-!
# Consistent descriptors

Whatever steps are taken, failing ones included, the descriptor that is built agrees with itself.

* `Descriptor.PackagesComplete`: every package that a directive or the main class speaks of is one of the
  module's packages;
* `Descriptor.NamesValid`: every name in the descriptor is one of the kind that stands there;
* `Operation.givenNames`: the names of a step; a strict builder has no objection only if they are valid.

Main fact: `build_consistent`.  Packages of classes are never looked at when they join the module; that
they are named well is `isPackageName_of_packageOf?`.
-/

namespace ClassMetadata.Module

/-- Whether the package of a class, all that stands in front of the last dot, is one of the module's. -/
def Descriptor.HasPackageOf (m : Descriptor) (className : String) : Prop :=
  ∀ package simple, className = package ++ "." ++ simple → '.' ∉ simple.toList → package ∈ m.packages

structure Descriptor.PackagesComplete (m : Descriptor) : Prop where
  exported : ∀ d ∈ m.exports, d.package ∈ m.packages
  opened : ∀ d ∈ m.opens, d.package ∈ m.packages
  providers : ∀ d ∈ m.provides, ∀ provider ∈ d.providers, m.HasPackageOf provider
  mainClass : ∀ name, m.mainClass = some name → m.HasPackageOf name

structure Descriptor.NamesValid (m : Descriptor) : Prop where
  name : isQualifiedName m.name = true
  required : ∀ d ∈ m.requires, isQualifiedName d.name = true
  exportTargets : ∀ d ∈ m.exports, ∀ target ∈ d.targets, isQualifiedName target = true
  openTargets : ∀ d ∈ m.opens, ∀ target ∈ d.targets, isQualifiedName target = true
  used : ∀ d ∈ m.uses, isQualifiedName d.service = true
  provided : ∀ d ∈ m.provides, isQualifiedName d.service = true
  providers : ∀ d ∈ m.provides, ∀ provider ∈ d.providers, isQualifiedName provider = true
  mainClass : ∀ name, m.mainClass = some name → isQualifiedName name = true
  packages : ∀ package ∈ m.packages, isPackageName package = true

/-! ### packages -/

section Packages

variable {b : Builder} {step : Operation}

theorem Descriptor.HasPackageOf.extend {className : String} (h : b.draft.HasPackageOf className) :
    (b.extend step).draft.HasPackageOf className := by
  intro package simple hname hsimple
  exact Builder.mem_packages_extend.2 (.inr (h package simple hname hsimple))

theorem hasPackageOf_extend {className : String} {classes : List String} (hmem : className ∈ classes)
    (hadded : step.addedPackages = classes.filterMap packageOf?) :
    (b.extend step).draft.HasPackageOf className := by
  intro package simple hname hsimple
  have hpackage : packageOf? className = some package := packageOf?_eq_some_iff.2 ⟨simple, hname, hsimple⟩
  refine Builder.mem_packages_extend.2 (.inl ?_)
  rw [hadded]
  exact List.mem_filterMap.2 ⟨className, hmem, hpackage⟩

/-- **Extending a builder keeps the packages complete**, whatever the names are. -/
theorem packagesComplete_extend (h : b.draft.PackagesComplete) :
    (b.extend step).draft.PackagesComplete where
  exported d hd := by
    rw [Builder.mem_packages_extend]
    rcases List.mem_append.1 hd with hold | hnew
    · exact .inr (h.exported d hold)
    · cases step <;> simp at hnew
      subst hnew
      exact .inl (List.mem_singleton_self _)
  opened d hd := by
    rw [Builder.mem_packages_extend]
    rcases List.mem_append.1 hd with hold | hnew
    · exact .inr (h.opened d hold)
    · cases step <;> simp at hnew
      subst hnew
      exact .inl (List.mem_singleton_self _)
  providers d hd provider hprovider := by
    rcases List.mem_append.1 hd with hold | hnew
    · exact (h.providers d hold provider hprovider).extend
    · cases step <;> simp at hnew
      subst hnew
      exact hasPackageOf_extend hprovider rfl
  mainClass name hname := by
    cases step with
    | mainClass given =>
      obtain rfl : given = name := Option.some.inj hname
      exact hasPackageOf_extend (List.mem_singleton_self given) rfl
    | _ => exact (h.mainClass name hname).extend

end Packages

/-! ### names -/

/-- The names that a step gives, each with what it is to stand for. -/
@[simp]
def Operation.givenNames : Operation → List (NameKind × String)
  | .requires _ name _ _ => [(.module, name)]
  | .exports _ package targets _ => (.package, package) :: targets.map fun target => (.module, target)
  | .opens _ package targets _ => (.package, package) :: targets.map fun target => (.module, target)
  | .uses service _ => [(.service, service)]
  | .provides service providers _ =>
    (.service, service) :: providers.map fun provider => (.provider, provider)
  | .packages names => names.map fun name => (.package, name)
  | .version _ => []
  | .mainClass name => [(.mainClass, name)]

section Names

variable {b : Builder} {step : Operation} {declared : DirectiveKind → String → Bool} {module : String}

/-- Names that a strict builder takes are valid. -/
theorem isValid_of_badName?_eq_none {kind : NameKind} {names : List String}
    (h : badName? true kind names = none) :
    ∀ given ∈ names.map (fun name => (kind, name)), Builder.isValid given.1 given.2 = true := by
  intro given hgiven
  obtain ⟨name, hname, rfl⟩ := List.mem_map.1 hgiven
  exact badName?_eq_none_iff.1 h name hname

theorem isValid_of_badName?_cons {kind kind' : NameKind} {name : String} {names : List String}
    (h : badName? true kind [name] = none) (hnames : badName? true kind' names = none) :
    ∀ given ∈ (kind, name) :: names.map (fun name => (kind', name)),
      Builder.isValid given.1 given.2 = true := by
  have hfirst := isValid_of_badName?_eq_none h (kind, name) (List.mem_singleton_self _)
  exact List.forall_mem_cons.2 ⟨hfirst, isValid_of_badName?_eq_none hnames⟩

/-- **A strict builder has no objection to a step only if all its names are valid.** -/
theorem isValid_of_givenNames (h : step.objection? module true declared = none) :
    ∀ given ∈ step.givenNames, Builder.isValid given.1 given.2 = true := by
  cases step with
  | requires modifiers name version annotations =>
    obtain ⟨hname, -⟩ := Option.or_eq_none_iff.1 h
    exact isValid_of_badName?_eq_none hname
  | exports modifiers package targets annotations =>
    obtain ⟨hpackage, hrest⟩ := Option.or_eq_none_iff.1 h
    obtain ⟨htargets, -⟩ := Option.or_eq_none_iff.1 hrest
    exact isValid_of_badName?_cons hpackage htargets
  | opens modifiers package targets annotations =>
    obtain ⟨hpackage, hrest⟩ := Option.or_eq_none_iff.1 h
    obtain ⟨htargets, -⟩ := Option.or_eq_none_iff.1 hrest
    exact isValid_of_badName?_cons hpackage htargets
  | uses service annotations =>
    obtain ⟨hservice, -⟩ := Option.or_eq_none_iff.1 h
    exact isValid_of_badName?_eq_none hservice
  | provides service providers annotations =>
    obtain ⟨hservice, hrest⟩ := Option.or_eq_none_iff.1 h
    obtain ⟨-, hrest⟩ := Option.or_eq_none_iff.1 hrest
    obtain ⟨hproviders, -⟩ := Option.or_eq_none_iff.1 hrest
    exact isValid_of_badName?_cons hservice hproviders
  | packages names => exact isValid_of_badName?_eq_none h
  | version text => exact List.forall_mem_nil _
  | mainClass name => exact isValid_of_badName?_eq_none h

/-- What is added to the packages is a package that is named, or the package of a class that is named. -/
theorem origin_of_added {package : String} (h : package ∈ step.addedPackages) :
    (.package, package) ∈ step.givenNames ∨
      ∃ kind name, kind ≠ .package ∧ (kind, name) ∈ step.givenNames ∧ packageOf? name = some package := by
  cases step with
  | exports | opens => exact .inl (by simp_all)
  | packages names => exact .inl (by simpa using h)
  | provides service providers annotations =>
    obtain ⟨provider, hprovider, hpackage⟩ := List.mem_filterMap.1 h
    exact .inr ⟨.provider, provider, nofun, by simp [hprovider], hpackage⟩
  | mainClass name =>
    obtain ⟨className, hclass, hpackage⟩ := List.mem_filterMap.1 h
    exact .inr ⟨.mainClass, className, nofun, by simpa using hclass, hpackage⟩
  | requires | uses | version => cases h

/-- Packages that join a module are named well, those of classes because the classes are. -/
theorem isPackageName_of_added (hvalid : ∀ given ∈ step.givenNames, Builder.isValid given.1 given.2 = true)
    {package : String} (hpackage : package ∈ step.addedPackages) : isPackageName package = true := by
  rcases origin_of_added hpackage with hgiven | ⟨kind, name, hkind, hgiven, hof⟩
  · exact hvalid _ hgiven
  · refine isPackageName_of_packageOf? ?_ hof
    have hname := hvalid _ hgiven
    cases kind with
    | package => exact absurd rfl hkind
    | _ => exact hname

/-- **Extending a builder keeps the names valid**, if those of the step are. -/
theorem namesValid_extend (h : b.draft.NamesValid)
    (hvalid : ∀ given ∈ step.givenNames, Builder.isValid given.1 given.2 = true) :
    (b.extend step).draft.NamesValid where
  name := h.name
  required d hd := by
    rcases List.mem_append.1 hd with hold | hnew
    · exact h.required d hold
    · cases step <;> simp at hnew
      subst hnew
      exact hvalid (.module, _) (by simp)
  exportTargets d hd target htarget := by
    rcases List.mem_append.1 hd with hold | hnew
    · exact h.exportTargets d hold target htarget
    · cases step <;> simp at hnew
      subst hnew
      exact hvalid (.module, target) (by simp [NameSet.mem_ofList.1 htarget])
  openTargets d hd target htarget := by
    rcases List.mem_append.1 hd with hold | hnew
    · exact h.openTargets d hold target htarget
    · cases step <;> simp at hnew
      subst hnew
      exact hvalid (.module, target) (by simp [NameSet.mem_ofList.1 htarget])
  used d hd := by
    rcases List.mem_append.1 hd with hold | hnew
    · exact h.used d hold
    · cases step <;> simp at hnew
      subst hnew
      exact hvalid (.service, _) (by simp)
  provided d hd := by
    rcases List.mem_append.1 hd with hold | hnew
    · exact h.provided d hold
    · cases step <;> simp at hnew
      subst hnew
      exact hvalid (.service, _) (by simp)
  providers d hd provider hprovider := by
    rcases List.mem_append.1 hd with hold | hnew
    · exact h.providers d hold provider hprovider
    · cases step <;> simp at hnew
      subst hnew
      exact hvalid (.provider, provider) (by simp [hprovider])
  mainClass name hname := by
    cases step with
    | mainClass given =>
      obtain rfl : given = name := Option.some.inj hname
      exact hvalid (.mainClass, given) (by simp)
    | _ => exact h.mainClass name hname
  packages package hpackage := by
    rcases Builder.mem_packages_extend.1 hpackage with hnew | hold
    · exact isPackageName_of_added hvalid hnew
    · exact h.packages package hold

end Names

/-! ### whole runs -/

/-- What holds of every builder that has been made and used. -/
structure Builder.Consistent (b : Builder) : Prop where
  packages : b.draft.PackagesComplete
  names : b.strict = true → b.draft.NamesValid

theorem consistent_fresh {name : String} {strict : Bool} (hname : permits strict .module name = true)
    (modifiers : List ModuleModifier) : (Builder.fresh name strict modifiers).Consistent where
  packages := by constructor <;> simp [Builder.fresh]
  names hstrict := by
    obtain rfl : strict = true := hstrict
    have hvalid : isQualifiedName name = true := hname
    constructor <;> simp [Builder.fresh, hvalid, NameSet.not_mem_empty]

theorem consistent_extend {b : Builder} {step : Operation} (h : b.Consistent)
    (hstep : b.objection? step = none) : (b.extend step).Consistent where
  packages := packagesComplete_extend h.packages
  names hstrict := by
    have hstrict : b.strict = true := hstrict
    rw [Builder.objection?, hstrict] at hstep
    exact namesValid_extend (h.names hstrict) (isValid_of_givenNames hstep)

theorem Builder.strict_performAll (b : Builder) (steps : List Operation) :
    (b.performAll steps).strict = b.strict :=
  performAll_induction (P := fun b' => b'.strict = b.strict) rfl (fun _ _ h _ => h) steps

/-- **Whatever steps are taken, the packages of the descriptor are complete; in a strict builder its names
are valid as well**, those of the packages that come from classes included. -/
theorem build_consistent {name : String} {strict : Bool} {modifiers : List ModuleModifier} {b : Builder}
    (hb : Builder.new name strict modifiers = .ok b) (steps : List Operation) :
    (b.performAll steps).build.PackagesComplete ∧
      (strict = true → (b.performAll steps).build.NamesValid) := by
  obtain ⟨hname, rfl⟩ := Builder.new_eq_ok_iff.1 hb
  have hrun : ((Builder.fresh name strict modifiers).performAll steps).Consistent :=
    Builder.performAll_induction (consistent_fresh hname modifiers) (fun _ _ => consistent_extend) steps
  refine ⟨hrun.packages, fun hstrict => hrun.names ?_⟩
  rw [Builder.strict_performAll]
  exact hstrict

/-- The main class is refused once and then accepted; its package is never named by a step. -/
theorem package_of_mainClass :
    let m :=
      ((Builder.fresh "app" true []).performAll [.mainClass "1x.Main", .mainClass "app.cli.Main"]).build
    Builder.new "app" true [] = .ok (.fresh "app" true []) ∧ m.mainClass = some "app.cli.Main" ∧
      "app.cli" ∈ m.packages ∧ isPackageName "app.cli" = true := by
  have hnew : Builder.new "app" true [] = .ok (.fresh "app" true []) :=
    Builder.new_eq_ok_iff.2 ⟨by decide +kernel, rfl⟩
  obtain ⟨hpackages, hnames⟩ :=
    build_consistent hnew [.mainClass "1x.Main", .mainClass "app.cli.Main"]
  have hmain : ((Builder.fresh "app" true []).performAll
      [.mainClass "1x.Main", .mainClass "app.cli.Main"]).build.mainClass = some "app.cli.Main" := by
    decide +kernel
  have hmem := hpackages.mainClass "app.cli.Main" hmain "app.cli" "Main" (by decide) (by decide)
  exact ⟨hnew, hmain, hmem, (hnames rfl).packages "app.cli" hmem⟩

end ClassMetadata.Module
