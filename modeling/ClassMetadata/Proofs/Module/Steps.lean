import ClassMetadata.Module.Builder
import Mathlib.Data.List.TakeWhile

/-!
# What a building step does

A step is refused for the first of several reasons, or else it adds to the descriptor.  Both are said here
apart from the builder: the reasons from the names that are declared already, the additions from the step
alone.

* `Operation.objection?`: the first reason against a step;
* `Operation.requires?`, `Operation.addedPackages`, …: what a step adds;
* `Builder.extend`: a builder with all that a step adds;
* `perform_eq`: **a step without objections extends the builder, and one that is refused leaves it as it
  was**, but for the packages in front of a bad one.
-/

namespace ClassMetadata.Module

/-! ### reasons -/

/-- The reason `e`, if a condition holds. -/
def sayIf (condition : Bool) (e : BuilderError) : Option BuilderError :=
  if condition then some e else none

/-- Whether a builder takes a name; a lenient one takes all. -/
def permits (strict : Bool) (kind : NameKind) (name : String) : Bool :=
  !strict || Builder.isValid kind name

/-- The reason against the first bad name of a list. -/
def badName? (strict : Bool) (kind : NameKind) (names : List String) : Option BuilderError :=
  (names.find? fun name => !permits strict kind name).map (.invalidName kind)

theorem sayIf_eq_none_iff {condition : Bool} {e : BuilderError} :
    sayIf condition e = none ↔ condition = false := by
  cases condition <;> simp [sayIf]

theorem permits_eq_false_iff {strict : Bool} {kind : NameKind} {name : String} :
    permits strict kind name = false ↔ strict = true ∧ Builder.isValid kind name = false := by
  cases strict <;> simp [permits]

theorem badName?_eq_none_iff {strict : Bool} {kind : NameKind} {names : List String} :
    badName? strict kind names = none ↔ ∀ name ∈ names, permits strict kind name = true := by
  simp [badName?]

/-- The reason against a list of names is its first bad one. -/
theorem badName?_eq_some_iff {strict : Bool} {kind : NameKind} {names : List String} {e : BuilderError} :
    badName? strict kind names = some e ↔
      ∃ front bad back, names = front ++ bad :: back ∧ (∀ name ∈ front, permits strict kind name = true) ∧
        permits strict kind bad = false ∧ e = .invalidName kind bad := by
  simp only [badName?, Option.map_eq_some_iff, List.find?_eq_some_iff_append]
  constructor
  · rintro ⟨bad, ⟨hbad, front, back, hnames, hfront⟩, rfl⟩
    exact ⟨front, bad, back, hnames, by simpa using hfront, by simpa using hbad, rfl⟩
  · rintro ⟨front, bad, back, hnames, hfront, hbad, rfl⟩
    exact ⟨bad, ⟨by simp [hbad], front, back, hnames, by simpa using hfront⟩, rfl⟩

theorem badName?_cons (strict : Bool) (kind : NameKind) (name : String) (names : List String) :
    badName? strict kind (name :: names) = (badName? strict kind [name]).or (badName? strict kind names) := by
  cases h : permits strict kind name <;> simp [badName?, h]

/-- The first reason against a step for a module, where `declared` tells the names that directives of a
kind are about already. -/
def Operation.objection? (module : String) (strict : Bool) (declared : DirectiveKind → String → Bool) :
    Operation → Option BuilderError
  | .requires _ name _ _ =>
    (badName? strict .module [name]).or <| (sayIf (name == module) (.selfRequires name)).or <|
      sayIf (declared .requires name) (.duplicateRequires name)
  | .exports _ package targets _ =>
    (badName? strict .package [package]).or <| (badName? strict .module targets).or <|
      sayIf (declared .exports package) (.duplicateExports package)
  | .opens _ package targets _ =>
    (badName? strict .package [package]).or <| (badName? strict .module targets).or <|
      sayIf (declared .opens package) (.duplicateOpens package)
  | .uses service _ =>
    (badName? strict .service [service]).or <| sayIf (declared .uses service) (.duplicateUses service)
  | .provides service providers _ =>
    (badName? strict .service [service]).or <| (sayIf providers.isEmpty (.emptyProviders service)).or <|
      (badName? strict .provider providers).or <|
        sayIf (declared .provides service) (.duplicateProvides service)
  | .packages names => badName? strict .package names
  | .version _ => none
  | .mainClass name => badName? strict .mainClass [name]

/-! ### additions -/

/-- The directive that a step gives, if it is one of that kind. -/
@[simp]
def Operation.requires? : Operation → Option Requires
  | .requires modifiers name compiled annotations =>
    some ⟨Builder.inOrder RequiresModifier.all modifiers, name, compiled, annotations⟩
  | _ => none

@[simp, inherit_doc Operation.requires?]
def Operation.exports? : Operation → Option PackageAccess
  | .exports modifiers package targets annotations =>
    some ⟨Builder.inOrder PackageModifier.all modifiers, package, .ofList targets, annotations⟩
  | _ => none

@[simp, inherit_doc Operation.requires?]
def Operation.opens? : Operation → Option PackageAccess
  | .opens modifiers package targets annotations =>
    some ⟨Builder.inOrder PackageModifier.all modifiers, package, .ofList targets, annotations⟩
  | _ => none

@[simp, inherit_doc Operation.requires?]
def Operation.uses? : Operation → Option Uses
  | .uses service annotations => some ⟨service, annotations⟩
  | _ => none

@[simp, inherit_doc Operation.requires?]
def Operation.provides? : Operation → Option Provides
  | .provides service providers annotations => some ⟨service, providers, annotations⟩
  | _ => none

@[simp]
def Operation.version? : Operation → Option String
  | .version text => some text
  | _ => none

@[simp]
def Operation.mainClass? : Operation → Option String
  | .mainClass name => some name
  | _ => none

/-- The packages that a step puts into the module: those it names, and those of the classes it names. -/
@[simp]
def Operation.addedPackages : Operation → List String
  | .exports _ package _ _ => [package]
  | .opens _ package _ _ => [package]
  | .provides _ providers _ => providers.filterMap packageOf?
  | .packages names => names
  | .mainClass name => [name].filterMap packageOf?
  | _ => []

/-- What a directive is about. -/
@[simp]
def Operation.subject? : Operation → Option (DirectiveKind × String)
  | .requires _ name _ _ => some (.requires, name)
  | .exports _ package _ _ => some (.exports, package)
  | .opens _ package _ _ => some (.opens, package)
  | .uses service _ => some (.uses, service)
  | .provides service _ _ => some (.provides, service)
  | _ => none

namespace Builder

variable {b : Builder}

/-- The builder with all that a step adds. -/
def extend (b : Builder) (step : Operation) : Builder where
  strict := b.strict
  draft := {
    name := b.draft.name
    modifiers := b.draft.modifiers
    version := step.version?.or b.draft.version
    mainClass := step.mainClass?.or b.draft.mainClass
    requires := b.draft.requires ++ step.requires?.toList
    exports := b.draft.exports ++ step.exports?.toList
    opens := b.draft.opens ++ step.opens?.toList
    uses := b.draft.uses ++ step.uses?.toList
    provides := b.draft.provides ++ step.provides?.toList
    packages := b.draft.packages.insertAll step.addedPackages }
  declared :=
    match step.subject? with
    | some (kind, name) => declare b.declared kind name
    | none => b.declared

theorem mem_packages_extend {step : Operation} {package : String} :
    package ∈ (b.extend step).draft.packages ↔ package ∈ step.addedPackages ∨ package ∈ b.draft.packages :=
  NameSet.mem_insertAll

theorem mem_declared_extend {step : Operation} {kind : DirectiveKind} {name : String} :
    name ∈ (b.extend step).declared kind ↔ step.subject? = some (kind, name) ∨ name ∈ b.declared kind := by
  unfold extend
  cases h : step.subject? with
  | none => simp
  | some subject => simp [mem_declare, Prod.ext_iff, eq_comm]

/-- The first reason that a builder has against a step. -/
def objection? (b : Builder) (step : Operation) : Option BuilderError :=
  step.objection? b.draft.name b.strict fun kind name => (b.declared kind).contains name

/-- What a refused step leaves: the packages in front of a bad one have been put in. -/
def remain (b : Builder) : Operation → Builder
  | .packages names => b.extend (.packages (names.takeWhile (permits b.strict .package)))
  | _ => b

/-! ### checks as reasons -/

/-- Goes on unless there is a reason against it. -/
def unless? (reason : Option BuilderError) : Except BuilderError Unit :=
  match reason with
  | none => .ok ()
  | some e => .error e

theorem unless?_or (reason other : Option BuilderError) :
    unless? (reason.or other) = unless? reason >>= fun _ => unless? other := by
  cases reason <;> rfl

theorem refuseIf_eq (condition : Bool) (e : BuilderError) :
    refuseIf condition e = unless? (sayIf condition e) := by
  cases condition <;> rfl

theorem check_eq (strict : Bool) (kind : NameKind) (name : String) :
    check strict kind name = unless? (badName? strict kind [name]) := by
  cases strict with
  | false => rfl
  | true => cases h : isValid kind name <;> simp [check, badName?, permits, unless?, h]

theorem checkAll_eq (strict : Bool) (kind : NameKind) (names : List String) :
    checkAll strict kind names = unless? (badName? strict kind names) := by
  induction names with
  | nil => rfl
  | cons name names ih => rw [checkAll, ih, check_eq, ← unless?_or, ← badName?_cons]

theorem new_eq_ok_iff {name : String} {strict : Bool} {modifiers : List ModuleModifier} :
    new name strict modifiers = .ok b ↔
      permits strict .module name = true ∧ b = fresh name strict modifiers := by
  rw [new, check_eq]
  cases h : permits strict .module name <;> simp [badName?, h, unless?, eq_comm]

/-! ### changes in place -/

section Changes

variable {α : Type}

/-- The result of a change, with the builder behind it. -/
abbrev Change.outcome (change : Change α) (b : Builder) : Except BuilderError α × Builder :=
  change.run.run b

/-- An outcome, unless there is a reason against it, which leaves the builder as it is. -/
def refusedOr (b : Builder) (reason : Option BuilderError) (outcome : Except BuilderError α × Builder) :
    Except BuilderError α × Builder :=
  match reason with
  | none => outcome
  | some e => (.error e, b)

theorem refusedOr_or (reason other : Option BuilderError) (outcome : Except BuilderError α × Builder) :
    b.refusedOr (reason.or other) outcome = b.refusedOr reason (b.refusedOr other outcome) := by
  cases reason <;> rfl

theorem outcome_get (next : Builder → Change α) : (get >>= next).outcome b = (next b).outcome b := rfl

theorem outcome_set (after : Builder) (next : PUnit → Change α) :
    Change.outcome (set after >>= next) b = (next ⟨⟩).outcome after := rfl

theorem outcome_modify (f : Builder → Builder) : Change.outcome (modify f) b = (.ok (), f b) := rfl

theorem outcome_modify_bind (f : Builder → Builder) (next : PUnit → Change α) :
    Change.outcome (modify f >>= next) b = (next ⟨⟩).outcome (f b) := rfl

theorem outcome_unless? (reason : Option BuilderError) (next : Unit → Change α) :
    Change.outcome (liftM (unless? reason) >>= next) b = b.refusedOr reason ((next ()).outcome b) := by
  cases reason <;> rfl

/-- A name is put in before it is refused; it is refused only if it was there, so nothing has changed. -/
theorem outcome_claim (kind : DirectiveKind) (name : String) (next : Unit → Change α) :
    (claim kind name >>= next).outcome b =
      b.refusedOr (sayIf ((b.declared kind).contains name) (kind.duplicate name))
        ((next ()).outcome { b with declared := declare b.declared kind name }) := by
  show Change.outcome (liftM (refuseIf ((b.declared kind).contains name) (kind.duplicate name)) >>= next)
    { b with declared := declare b.declared kind name } = _
  rw [refuseIf_eq, outcome_unless?]
  cases h : (b.declared kind).contains name with
  | false => rfl
  | true => rw [declare_of_mem (NameSet.contains_iff.1 h)]

end Changes

/-! ### steps -/

section Steps

variable (packages : List PackageModifier) (annotations : List Deferred.Node)

theorem requires_eq (modifiers : List RequiresModifier) (name : String) (version : Option String) :
    (requires modifiers name version annotations).outcome b =
      b.refusedOr (b.objection? (.requires modifiers name version annotations))
        (.ok (), b.extend (.requires modifiers name version annotations)) := by
  simp only [requires, outcome_get, check_eq, refuseIf_eq, outcome_unless?, outcome_claim, outcome_modify,
    objection?, Operation.objection?, refusedOr_or]
  simp [extend, DirectiveKind.duplicate, NameSet.insertAll_nil]

theorem grant_eq {α : Type} (kind : DirectiveKind) (package : String) (targets : List String)
    (next : PackageAccess → Change α) :
    (grant kind packages package targets annotations >>= next).outcome b =
      b.refusedOr ((badName? b.strict .package [package]).or <| (badName? b.strict .module targets).or <|
          sayIf ((b.declared kind).contains package) (kind.duplicate package))
        ((next ⟨inOrder PackageModifier.all packages, package, .ofList targets, annotations⟩).outcome
          { b with
            draft := { b.draft with packages := b.draft.packages.insert package }
            declared := declare b.declared kind package }) := by
  simp only [grant, bind_assoc, pure_bind, outcome_get, check_eq, checkAll_eq, outcome_unless?,
    outcome_claim, outcome_modify_bind, refusedOr_or]

theorem exports_eq (package : String) (targets : List String) :
    (exports packages package targets annotations).outcome b =
      b.refusedOr (b.objection? (.exports packages package targets annotations))
        (.ok (), b.extend (.exports packages package targets annotations)) := by
  rw [exports, grant_eq, outcome_modify, objection?, Operation.objection?]
  simp [extend, DirectiveKind.duplicate, NameSet.insertAll_cons, NameSet.insertAll_nil]

theorem opens_eq (package : String) (targets : List String) :
    (opens packages package targets annotations).outcome b =
      b.refusedOr (b.objection? (.opens packages package targets annotations))
        (.ok (), b.extend (.opens packages package targets annotations)) := by
  rw [opens, grant_eq, outcome_modify, objection?, Operation.objection?]
  simp [extend, DirectiveKind.duplicate, NameSet.insertAll_cons, NameSet.insertAll_nil]

theorem uses_eq (service : String) :
    (uses service annotations).outcome b =
      b.refusedOr (b.objection? (.uses service annotations))
        (.ok (), b.extend (.uses service annotations)) := by
  simp only [uses, outcome_get, check_eq, outcome_unless?, outcome_claim, outcome_modify, objection?,
    Operation.objection?, refusedOr_or]
  simp [extend, DirectiveKind.duplicate, NameSet.insertAll_nil]

theorem provides_eq (service : String) (providers : List String) :
    (provides service providers annotations).outcome b =
      b.refusedOr (b.objection? (.provides service providers annotations))
        (.ok (), b.extend (.provides service providers annotations)) := by
  simp only [provides, outcome_get, check_eq, refuseIf_eq, checkAll_eq, outcome_unless?, outcome_claim,
    outcome_modify_bind, outcome_modify, objection?, Operation.objection?, refusedOr_or]
  simp [extend, DirectiveKind.duplicate, withPackagesOf]

theorem mainClass_eq (name : String) :
    (mainClass name).outcome b =
      b.refusedOr (b.objection? (.mainClass name)) (.ok (), b.extend (.mainClass name)) := by
  simp only [mainClass, outcome_get, check_eq, outcome_unless?, outcome_modify_bind, outcome_modify,
    objection?, Operation.objection?]
  simp [extend, withPackagesOf]

end Steps

theorem version_eq (text : String) : (version text).outcome b = (.ok (), b.extend (.version text)) := by
  rw [version, outcome_modify]
  simp [extend, NameSet.insertAll_nil]

theorem extend_packages (names : List String) :
    b.extend (.packages names) =
      { b with draft := { b.draft with packages := b.draft.packages.insertAll names } } := by
  simp [extend]

theorem extend_packages_nil : b.extend (.packages []) = b := extend_packages []

/-- The packages in front of the first bad one are put in, also if there is a bad one. -/
theorem packages_eq (names : List String) :
    (packages names).outcome b =
      (unless? (badName? b.strict .package names),
        b.extend (.packages (names.takeWhile (permits b.strict .package)))) := by
  induction names generalizing b with
  | nil => rw [List.takeWhile_nil, extend_packages_nil]; rfl
  | cons name names ih =>
    rw [packages, outcome_get, check_eq, outcome_unless?, outcome_set,
      badName?_cons b.strict .package name names]
    cases hname : permits b.strict .package name with
    | true =>
      rw [badName?_eq_none_iff.2 (by simpa using hname), List.takeWhile_cons_of_pos hname]
      exact ih
    | false =>
      have hbad : badName? b.strict .package [name] = some (.invalidName .package name) := by
        simp [badName?, hname]
      rw [hbad, List.takeWhile_cons_of_neg (by simp [hname]), extend_packages_nil]
      rfl

theorem perform_eq_of_outcome (step : Operation) :
    b.perform step =
      match step.change.outcome b with
      | (.ok (), after) => (after, none)
      | (.error e, after) => (after, some e) :=
  rfl

/-- The outcome of a step that has made all its checks when it begins to change the builder. -/
theorem perform_of_outcome {step : Operation}
    (h : step.change.outcome b = b.refusedOr (b.objection? step) (.ok (), b.extend step)) :
    b.perform step =
      match b.objection? step with
      | none => (b.extend step, none)
      | some e => (b, some e) := by
  rw [perform_eq_of_outcome, h]
  cases b.objection? step <;> rfl

/-- A list of packages fails for its first bad name, and puts in those in front of it. -/
theorem perform_packages (names : List String) :
    b.perform (.packages names) =
      (b.extend (.packages (names.takeWhile (permits b.strict .package))),
        badName? b.strict .package names) := by
  rw [perform_eq_of_outcome, Operation.change, packages_eq]
  cases badName? b.strict .package names <;> rfl

/-- **A step to which there is no objection extends the builder, and any other leaves what remains.** -/
theorem perform_eq (step : Operation) :
    b.perform step =
      match b.objection? step with
      | none => (b.extend step, none)
      | some e => (b.remain step, some e) := by
  cases step with
  | requires modifiers name version annotations => exact perform_of_outcome (requires_eq ..)
  | exports modifiers package targets annotations => exact perform_of_outcome (exports_eq ..)
  | opens modifiers package targets annotations => exact perform_of_outcome (opens_eq ..)
  | uses service annotations => exact perform_of_outcome (uses_eq ..)
  | provides service providers annotations => exact perform_of_outcome (provides_eq ..)
  | packages names =>
    rw [perform_packages, objection?, Operation.objection?]
    cases hbad : badName? b.strict .package names with
    | none => rw [List.takeWhile_eq_self_iff.2 (badName?_eq_none_iff.1 hbad)]
    | some e => rfl
  | version text => exact perform_of_outcome (version_eq text)
  | mainClass name => exact perform_of_outcome (mainClass_eq name)

/-- A step leaves the builder as it was, or extends it by a step to which there is no objection: the step
itself, or the part of it in front of a bad package. -/
theorem perform_cases (b : Builder) (step : Operation) :
    (b.perform step).1 = b ∨ ∃ done, b.objection? done = none ∧ (b.perform step).1 = b.extend done := by
  rw [perform_eq]
  cases hstep : b.objection? step with
  | none => exact .inr ⟨step, hstep, rfl⟩
  | some e =>
    cases step with
    | packages names =>
      refine .inr ⟨.packages (names.takeWhile (permits b.strict .package)), ?_, rfl⟩
      rw [objection?, Operation.objection?, badName?_eq_none_iff]
      intro name hname
      exact List.mem_takeWhile_imp hname
    | _ => exact .inl rfl

/-- What every extension keeps holds behind all steps. -/
theorem performAll_induction {P : Builder → Prop} (hb : P b)
    (hextend : ∀ b step, P b → b.objection? step = none → P (b.extend step)) (steps : List Operation) :
    P (b.performAll steps) := by
  induction steps generalizing b with
  | nil => exact hb
  | cons step steps ih =>
    have hnext : P (b.perform step).1 := by
      rcases perform_cases b step with hsame | ⟨done, hdone, hextended⟩
      · rw [hsame]
        exact hb
      · rw [hextended]
        exact hextend b done hb hdone
    exact ih hnext

end Builder

end ClassMetadata.Module
