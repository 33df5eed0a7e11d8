import ClassMetadata.Proofs.Module.Steps
import Mathlib.Data.List.Nodup

/-!
# Builders and their histories

A builder decides on the names that it has declared.  What it decides, and what it has built, can be told
from the steps taken so far and their outcomes alone.

* `Builder.history`: the steps that are taken with their outcomes;
* `verdict`: the outcome of a step behind a history;
* `Builder.Follows`: a builder that is what a history says, the relation that every step keeps;
* `Descriptor.Records`, `Descriptor.Distinct`: the directives of a descriptor are those of some steps, and
  no two directives of a kind are about one name.

Main fact: `build_records_history`.
-/

namespace ClassMetadata.Module

/-! ### histories -/

/-- Steps with the errors of those that failed, in the order in which they were taken. -/
abbrev History := List (Operation × Option BuilderError)

/-- The steps that succeeded. -/
def History.successes (h : History) : List Operation :=
  h.filterMap fun (step, failure) => if failure.isNone then some step else none

/-- Whether some step that adds packages failed. -/
def History.PackagesFailed (h : History) : Prop := ∃ names e, (Operation.packages names, some e) ∈ h

/-- Takes steps and writes down their outcomes. -/
def Builder.history (b : Builder) : List Operation → History
  | [] => []
  | step :: steps => (step, (b.perform step).2) :: (b.perform step).1.history steps

/-- What the directives among some steps are about. -/
def subjects (steps : List Operation) : List (DirectiveKind × String) := steps.filterMap Operation.subject?

/-- The outcome of a step behind a history: a name is taken if a step that succeeded gave a directive of
the same kind about it. -/
def verdict (module : String) (strict : Bool) (past : History) (step : Operation) : Option BuilderError :=
  step.objection? module strict fun kind name => (subjects past.successes).contains (kind, name)

/-- The directives are those that some steps give, in their order. -/
structure Descriptor.Records (m : Descriptor) (steps : List Operation) : Prop where
  requires : m.requires = steps.filterMap Operation.requires?
  exports : m.exports = steps.filterMap Operation.exports?
  opens : m.opens = steps.filterMap Operation.opens?
  uses : m.uses = steps.filterMap Operation.uses?
  provides : m.provides = steps.filterMap Operation.provides?

/-- No two directives of a kind are about one name, and the module does not require itself. -/
structure Descriptor.Distinct (m : Descriptor) : Prop where
  required : (m.requires.map Requires.name).Nodup
  exported : (m.exports.map PackageAccess.package).Nodup
  opened : (m.opens.map PackageAccess.package).Nodup
  used : (m.uses.map Uses.service).Nodup
  provided : (m.provides.map Provides.service).Nodup
  self : m.name ∉ m.requires.map Requires.name

theorem filterMap_concat {α β : Type} (f : α → Option β) (as : List α) (a : α) :
    (as ++ [a]).filterMap f = as.filterMap f ++ (f a).toList := by
  rw [List.filterMap_append]
  cases h : f a <;> simp [h]

namespace History

variable (past : History) (step : Operation)

theorem successes_concat_none : successes (past ++ [(step, none)]) = past.successes ++ [step] :=
  filterMap_concat _ past (step, none)

theorem successes_concat_some (e : BuilderError) : successes (past ++ [(step, some e)]) = past.successes :=
  (filterMap_concat _ past (step, some e)).trans (List.append_nil _)

theorem packagesFailed_concat (failure : Option BuilderError) (h : past.PackagesFailed) :
    PackagesFailed (past ++ [(step, failure)]) := by
  obtain ⟨names, e, hmem⟩ := h
  exact ⟨names, e, List.mem_append_left _ hmem⟩

end History

/-! ### distinct directives -/

section Distinct

variable {steps : List Operation}

/-- What the directives of one kind are about. -/
def subjectsOf (kind : DirectiveKind) (steps : List Operation) : List String :=
  (subjects steps).filterMap fun subject => if subject.1 = kind then some subject.2 else none

theorem mem_subjectsOf {kind : DirectiveKind} {name : String} :
    name ∈ subjectsOf kind steps ↔ (kind, name) ∈ subjects steps := by
  simp [subjectsOf]

theorem nodup_subjectsOf (h : (subjects steps).Nodup) (kind : DirectiveKind) :
    (subjectsOf kind steps).Nodup := by
  refine h.filterMap ?_
  rintro ⟨k, n⟩ ⟨k', n'⟩ name hname hname'
  simp only [Option.mem_def, Option.ite_none_right_eq_some, Option.some.injEq] at hname hname'
  rw [hname.1, hname.2, hname'.1, hname'.2]

/-- The names of the directives of a kind, read off the directives or off the steps. -/
theorem map_filterMap_eq_subjectsOf {α : Type} (kind : DirectiveKind) {given : Operation → Option α}
    {name : α → String}
    (h : ∀ step, (given step).map name =
      step.subject?.bind fun subject => if subject.1 = kind then some subject.2 else none) :
    (steps.filterMap given).map name = subjectsOf kind steps := by
  rw [subjectsOf, subjects, List.map_filterMap, List.filterMap_filterMap]
  exact List.filterMap_congr fun step _ => h step

theorem Descriptor.Records.distinct {m : Descriptor} (h : m.Records steps) (hnodup : (subjects steps).Nodup)
    (hself : (.requires, m.name) ∉ subjects steps) : m.Distinct := by
  have hrequired : m.requires.map Requires.name = subjectsOf .requires steps := by
    rw [h.requires]
    exact map_filterMap_eq_subjectsOf .requires fun step => by cases step <;> rfl
  refine ⟨?_, ?_, ?_, ?_, ?_, ?_⟩
  · rw [hrequired]
    exact nodup_subjectsOf hnodup .requires
  · rw [h.exports, map_filterMap_eq_subjectsOf .exports fun step => by cases step <;> rfl]
    exact nodup_subjectsOf hnodup .exports
  · rw [h.opens, map_filterMap_eq_subjectsOf .opens fun step => by cases step <;> rfl]
    exact nodup_subjectsOf hnodup .opens
  · rw [h.uses, map_filterMap_eq_subjectsOf .uses fun step => by cases step <;> rfl]
    exact nodup_subjectsOf hnodup .uses
  · rw [h.provides, map_filterMap_eq_subjectsOf .provides fun step => by cases step <;> rfl]
    exact nodup_subjectsOf hnodup .provides
  · rw [hrequired, mem_subjectsOf]
    exact hself

end Distinct

/-! ### a builder and its history -/

/-- A builder of a module that is what a history says. -/
structure Builder.Follows (b : Builder) (module : String) (strict : Bool) (past : History) : Prop where
  strict : b.strict = strict
  name : b.draft.name = module
  records : b.draft.Records past.successes
  declared : ∀ kind name, name ∈ b.declared kind ↔ (kind, name) ∈ subjects past.successes
  nodup : (subjects past.successes).Nodup
  self : (.requires, module) ∉ subjects past.successes
  packages : ¬ past.PackagesFailed →
    ∀ package, package ∈ b.draft.packages ↔ ∃ step ∈ past.successes, package ∈ step.addedPackages

/-- A step to which there is no objection is about something new, and a module does not require itself. -/
theorem subject_new {step : Operation} {module : String} {strict : Bool}
    {declared : DirectiveKind → String → Bool} {kind : DirectiveKind} {name : String}
    (h : step.objection? module strict declared = none) (hsubject : step.subject? = some (kind, name)) :
    declared kind name = false ∧ (kind, name) ≠ (.requires, module) := by
  cases step with
  | requires modifiers required compiled annotations =>
    obtain ⟨rfl, rfl⟩ : .requires = kind ∧ required = name := Prod.mk.inj (Option.some.inj hsubject)
    obtain ⟨-, hrest⟩ := Option.or_eq_none_iff.1 h
    obtain ⟨hself, hnew⟩ := Option.or_eq_none_iff.1 hrest
    have hother : required ≠ module := by simpa using sayIf_eq_none_iff.1 hself
    exact ⟨sayIf_eq_none_iff.1 hnew, fun heq => hother (Prod.mk.inj heq).2⟩
  | exports modifiers package targets annotations =>
    obtain ⟨rfl, rfl⟩ : .exports = kind ∧ package = name := Prod.mk.inj (Option.some.inj hsubject)
    obtain ⟨-, hrest⟩ := Option.or_eq_none_iff.1 h
    obtain ⟨-, hnew⟩ := Option.or_eq_none_iff.1 hrest
    exact ⟨sayIf_eq_none_iff.1 hnew, by simp⟩
  | opens modifiers package targets annotations =>
    obtain ⟨rfl, rfl⟩ : .opens = kind ∧ package = name := Prod.mk.inj (Option.some.inj hsubject)
    obtain ⟨-, hrest⟩ := Option.or_eq_none_iff.1 h
    obtain ⟨-, hnew⟩ := Option.or_eq_none_iff.1 hrest
    exact ⟨sayIf_eq_none_iff.1 hnew, by simp⟩
  | uses service annotations =>
    obtain ⟨rfl, rfl⟩ : .uses = kind ∧ service = name := Prod.mk.inj (Option.some.inj hsubject)
    obtain ⟨-, hnew⟩ := Option.or_eq_none_iff.1 h
    exact ⟨sayIf_eq_none_iff.1 hnew, by simp⟩
  | provides service providers annotations =>
    obtain ⟨rfl, rfl⟩ : .provides = kind ∧ service = name := Prod.mk.inj (Option.some.inj hsubject)
    obtain ⟨-, hrest⟩ := Option.or_eq_none_iff.1 h
    obtain ⟨-, hrest⟩ := Option.or_eq_none_iff.1 hrest
    obtain ⟨-, hnew⟩ := Option.or_eq_none_iff.1 hrest
    exact ⟨sayIf_eq_none_iff.1 hnew, by simp⟩
  | packages names => cases hsubject
  | version text => cases hsubject
  | mainClass name => cases hsubject

theorem records_extend {b : Builder} {steps : List Operation} (h : b.draft.Records steps) (step : Operation) :
    (b.extend step).draft.Records (steps ++ [step]) where
  requires := by rw [filterMap_concat, ← h.requires]; rfl
  exports := by rw [filterMap_concat, ← h.exports]; rfl
  opens := by rw [filterMap_concat, ← h.opens]; rfl
  uses := by rw [filterMap_concat, ← h.uses]; rfl
  provides := by rw [filterMap_concat, ← h.provides]; rfl

namespace Builder.Follows

variable {b : Builder} {module : String} {strict : Bool} {past : History}

theorem objection?_eq_verdict (h : b.Follows module strict past) (step : Operation) :
    b.objection? step = verdict module strict past step := by
  have hdeclared : (fun kind name => (b.declared kind).contains name) =
      fun kind name => (subjects past.successes).contains (kind, name) := by
    funext kind name
    rw [Bool.eq_iff_iff, NameSet.contains_iff, h.declared, List.contains_iff_mem]
  rw [objection?, verdict, h.name, h.strict, hdeclared]

theorem subjects_concat (steps : List Operation) (step : Operation) :
    subjects (steps ++ [step]) = subjects steps ++ step.subject?.toList :=
  filterMap_concat _ steps step

/-- What a step to which there is no objection is about is not in the history. -/
theorem not_mem_subjects (h : b.Follows module strict past) {step : Operation}
    (hstep : b.objection? step = none) {subject : DirectiveKind × String}
    (hsubject : step.subject? = some subject) :
    subject ∉ subjects past.successes ∧ subject ≠ (.requires, module) := by
  obtain ⟨hdeclared, hself⟩ := subject_new hstep hsubject
  rw [h.name] at hself
  refine ⟨fun hmem => ?_, hself⟩
  rw [NameSet.contains_iff.2 ((h.declared _ _).2 hmem)] at hdeclared
  cases hdeclared

/-- A step that succeeds is one more in the history. -/
theorem extend (h : b.Follows module strict past) {step : Operation} (hstep : b.objection? step = none) :
    (b.extend step).Follows module strict (past ++ [(step, none)]) where
  strict := h.strict
  name := h.name
  records := by
    rw [History.successes_concat_none]
    exact records_extend h.records step
  declared kind name := by
    rw [History.successes_concat_none, subjects_concat, mem_declared_extend, h.declared, List.mem_append,
      Option.mem_toList, or_comm]
  nodup := by
    rw [History.successes_concat_none, subjects_concat]
    cases hsubject : step.subject? with
    | none => simpa using h.nodup
    | some subject =>
      obtain ⟨hnew, -⟩ := h.not_mem_subjects hstep hsubject
      rw [Option.toList_some, ← List.concat_eq_append]
      exact h.nodup.concat hnew
  self := by
    rw [History.successes_concat_none, subjects_concat, List.mem_append, Option.mem_toList]
    rintro (hold | hnew)
    · exact h.self hold
    · exact (h.not_mem_subjects hstep hnew).2 rfl
  packages hpackages package := by
    have hpast : ¬ past.PackagesFailed := fun hfailed =>
      hpackages (History.packagesFailed_concat past step none hfailed)
    rw [History.successes_concat_none, mem_packages_extend, h.packages hpast]
    simp only [List.mem_append, List.mem_singleton, or_and_right, exists_or, exists_eq_left]
    exact or_comm

/-- A step that fails is only written down, also when it has put packages in. -/
theorem remain (h : b.Follows module strict past) (step : Operation) (e : BuilderError) :
    (b.remain step).Follows module strict (past ++ [(step, some e)]) := by
  have hwritten : b.Follows module strict (past ++ [(step, some e)]) := by
    refine ⟨h.strict, h.name, ?_, ?_, ?_, ?_, ?_⟩ <;> rw [History.successes_concat_some]
    · exact h.records
    · exact h.declared
    · exact h.nodup
    · exact h.self
    · exact fun hpackages => h.packages fun hfailed =>
        hpackages (History.packagesFailed_concat past step (some e) hfailed)
  cases step with
  | packages names =>
    have hfailed : History.PackagesFailed (past ++ [(.packages names, some e)]) :=
      ⟨names, e, List.mem_append_right past (List.mem_singleton_self _)⟩
    obtain ⟨hrequires, hexports, hopens, huses, hprovides⟩ := hwritten.records
    rw [Builder.remain, extend_packages]
    exact ⟨hwritten.strict, hwritten.name, ⟨hrequires, hexports, hopens, huses, hprovides⟩, hwritten.declared,
      hwritten.nodup, hwritten.self, fun hpackages => absurd hfailed hpackages⟩
  | _ => exact hwritten

/-- **Every step keeps a builder in accord with its history.** -/
theorem perform (h : b.Follows module strict past) (step : Operation) :
    (b.perform step).1.Follows module strict (past ++ [(step, (b.perform step).2)]) := by
  rw [perform_eq]
  cases hstep : b.objection? step with
  | none => exact h.extend hstep
  | some e => exact h.remain step e

/-- **A step behind a history has the outcome that the history tells.** -/
theorem outcome (h : b.Follows module strict past) (step : Operation) :
    (b.perform step).2 = verdict module strict past step := by
  rw [perform_eq, ← h.objection?_eq_verdict]
  cases b.objection? step <;> rfl

/-- Steps taken one after the other. -/
theorem performAll (h : b.Follows module strict past) (steps : List Operation) :
    (b.performAll steps).Follows module strict (past ++ b.history steps) := by
  induction steps generalizing b past with
  | nil => rwa [history, List.append_nil]
  | cons step steps ih =>
    have hrest := ih (h.perform step)
    rwa [List.append_assoc] at hrest

/-- Every outcome in a history is the verdict of what stands in front of it. -/
theorem verdict_of_mem (h : b.Follows module strict past) {steps : List Operation} {front back : History}
    {step : Operation} {failure : Option BuilderError}
    (hsplit : b.history steps = front ++ (step, failure) :: back) :
    failure = verdict module strict (past ++ front) step := by
  induction steps generalizing b past front with
  | nil => exact absurd hsplit (by simp [history])
  | cons first steps ih =>
    cases front with
    | nil =>
      rw [history, List.nil_append, List.cons.injEq, Prod.mk.injEq] at hsplit
      obtain ⟨⟨rfl, rfl⟩, -⟩ := hsplit
      rw [List.append_nil]
      exact h.outcome first
    | cons entry front =>
      rw [history, List.cons_append, List.cons.injEq] at hsplit
      obtain ⟨rfl, hrest⟩ := hsplit
      have hverdict := ih (h.perform first) hrest
      rwa [List.append_assoc] at hverdict

end Builder.Follows

theorem follows_fresh (name : String) (strict : Bool) (modifiers : List ModuleModifier) :
    (Builder.fresh name strict modifiers).Follows name strict [] where
  strict := rfl
  name := rfl
  records := ⟨rfl, rfl, rfl, rfl, rfl⟩
  declared kind name := by simp [Builder.fresh, NameSet.not_mem_empty, History.successes, subjects]
  nodup := List.nodup_nil
  self := List.not_mem_nil
  packages _ package := by simp [Builder.fresh, NameSet.not_mem_empty, History.successes]

/-- **A builder tells its history**: every step has the outcome that the steps in front of it decide, the
directives are those of the steps that succeeded, no two of a kind about one name, and unless adding
packages failed, the packages are those of the steps that succeeded. -/
theorem build_records_history {name : String} {strict : Bool} {modifiers : List ModuleModifier} {b : Builder}
    (hb : Builder.new name strict modifiers = .ok b) (steps : List Operation) :
    let m := (b.performAll steps).build
    let done := (b.history steps).successes
    (∀ past step failure later, b.history steps = past ++ (step, failure) :: later →
        failure = verdict name strict past step) ∧
      m.name = name ∧ m.Records done ∧ m.Distinct ∧
      (¬ (b.history steps).PackagesFailed →
        ∀ package, package ∈ m.packages ↔ ∃ step ∈ done, package ∈ step.addedPackages) := by
  obtain ⟨-, rfl⟩ := Builder.new_eq_ok_iff.1 hb
  have hstart := follows_fresh name strict modifiers
  have hend := hstart.performAll steps
  rw [List.nil_append] at hend
  have hself : (.requires, ((Builder.fresh name strict modifiers).performAll steps).draft.name) ∉
      subjects ((Builder.fresh name strict modifiers).history steps).successes := by
    rw [hend.name]
    exact hend.self
  refine ⟨?_, hend.name, hend.records, hend.records.distinct hend.nodup hself, hend.packages⟩
  intro past step failure later hsplit
  have hverdict := hstart.verdict_of_mem hsplit
  rwa [List.nil_append] at hverdict

set_option maxRecDepth 4000 in
/-- A module is required, then required again in vain; the main class brings its package. -/
theorem lib_required_once :
    let b := Builder.fresh "app" true []
    let lib : Operation := .requires [] "lib" none []
    let m := (b.performAll [lib, lib, .mainClass "app.cli.Main"]).build
    Builder.new "app" true [] = .ok b ∧
      verdict "app" true [(lib, none)] lib = some (.duplicateRequires "lib") ∧
      m.requires = [⟨[], "lib", none, []⟩] ∧ "app.cli" ∈ m.packages := by
  intro b lib m
  have hnew : Builder.new "app" true [] = .ok b := Builder.new_eq_ok_iff.2 ⟨by decide +kernel, rfl⟩
  have hhistory : b.history [lib, lib, .mainClass "app.cli.Main"] =
      [(lib, none), (lib, some (.duplicateRequires "lib")), (.mainClass "app.cli.Main", none)] := rfl
  obtain ⟨hverdict, -, hrecords, -, hpackages⟩ :=
    build_records_history hnew [lib, lib, .mainClass "app.cli.Main"]
  rw [hhistory] at hverdict hrecords hpackages
  have hnone : ¬ History.PackagesFailed
      [(lib, none), (lib, some (.duplicateRequires "lib")), (.mainClass "app.cli.Main", none)] := by
    rintro ⟨names, e, hmem⟩
    simp [lib] at hmem
  refine ⟨hnew, (hverdict [(lib, none)] lib _ _ rfl).symm, hrecords.requires, ?_⟩
  exact (hpackages hnone "app.cli").2 ⟨.mainClass "app.cli.Main", by simp [History.successes], by decide⟩

end ClassMetadata.Module
