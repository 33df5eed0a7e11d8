import ClassMetadata.Proofs.Module.History

/-!
# Refused steps

Behind a refused step the builder should be as if the step had not been taken.  So it is behind directives and
main classes, which change nothing else before their last check than to put in the name they declare, and
that name is refused only if it was in already.  It is not so behind a list of packages, where each name is
put in before the next is checked.

* `History.strike`: a history without the directives that were refused;
* `refused_directives_leave_no_trace`: **a refused directive leaves the builder as it was**, so any number of
  them can be struck out of a history;
* `refused_packages_keep_front`: **the names in front of a bad package stay put in**, and they are all that
  a refused list of packages changes.
-/

namespace ClassMetadata.Module

/-! ### directives -/

/-- Whether a step is a list of packages, the one step that goes on checking behind its first change. -/
def Operation.isPackages : Operation → Bool
  | .packages _ => true
  | _ => false

namespace History

/-- The steps of a history. -/
def steps (h : History) : List Operation := h.map Prod.fst

/-- A history without its refused steps, those that are lists of packages apart. -/
def strike (h : History) : History :=
  h.filter fun (step, failure) => failure.isNone || step.isPackages

theorem strike_cons_of_refused {step : Operation} {e : BuilderError} (hstep : step.isPackages = false)
    (h : History) : strike ((step, some e) :: h) = h.strike :=
  List.filter_cons_of_neg (by simp [hstep])

theorem strike_cons_of_kept {step : Operation} {failure : Option BuilderError}
    (hkept : (failure.isNone || step.isPackages) = true) (h : History) :
    strike ((step, failure) :: h) = (step, failure) :: h.strike :=
  List.filter_cons_of_pos hkept

/-- If no list of packages was refused, what is not struck out are the steps that succeeded. -/
theorem steps_strike {h : History} (hpackages : ¬ h.PackagesFailed) : h.strike.steps = h.successes := by
  rw [steps, strike, successes, ← List.filterMap_eq_map, List.filterMap_filter]
  refine List.filterMap_congr ?_
  rintro ⟨step, failure⟩ hmem
  cases failure with
  | none => rfl
  | some e =>
    cases step with
    | packages names => exact absurd ⟨names, e, hmem⟩ hpackages
    | _ => rfl

end History

namespace Builder

variable {b : Builder}

/-- A refused step that is not a list of packages leaves the builder as it was. -/
theorem perform_of_refused {step : Operation} {e : BuilderError} (hstep : step.isPackages = false)
    (h : (b.perform step).2 = some e) : b.perform step = (b, some e) := by
  rw [perform_eq] at h ⊢
  cases hobjection : b.objection? step with
  | none =>
    rw [hobjection] at h
    cases h
  | some reason =>
    rw [hobjection] at h
    obtain rfl : reason = e := Option.some.inj h
    cases step with
    | packages names => cases hstep
    | _ => rfl

/-- The steps that are not struck out of a history make the same builder, with the outcomes they had. -/
theorem replay_strike (b : Builder) (steps : List Operation) :
    b.history (b.history steps).strike.steps = (b.history steps).strike ∧
      b.performAll (b.history steps).strike.steps = b.performAll steps := by
  induction steps generalizing b with
  | nil => exact ⟨rfl, rfl⟩
  | cons step steps ih =>
    cases hkept : ((b.perform step).2.isNone || step.isPackages) with
    | true =>
      obtain ⟨hhistory, hbuilder⟩ := ih (b.perform step).1
      rw [history, History.strike_cons_of_kept hkept]
      exact ⟨congrArg _ hhistory, hbuilder⟩
    | false =>
      obtain ⟨hfailed, hstep⟩ := Bool.or_eq_false_iff.1 hkept
      obtain ⟨e, he⟩ := Option.isSome_iff_exists.1 (Option.isNone_eq_false_iff.1 hfailed)
      have hrefused := perform_of_refused hstep he
      obtain ⟨hhistory, hbuilder⟩ := ih b
      rw [history, hrefused, History.strike_cons_of_refused hstep]
      refine ⟨hhistory, hbuilder.trans ?_⟩
      show _ = (b.perform step).1.performAll steps
      rw [hrefused]

/-- A builder whose lists of packages were all taken is made by the steps that succeeded alone. -/
theorem performAll_successes {steps : List Operation} (hpackages : ¬ (b.history steps).PackagesFailed) :
    b.performAll (b.history steps).successes = b.performAll steps := by
  rw [← History.steps_strike hpackages]
  exact (b.replay_strike steps).2

end Builder

/-- **A refused directive leaves no trace**: the builder is as it was, steps taken behind it have the
outcomes that they would have without it, and all refused directives can be struck out of a history. -/
theorem refused_directives_leave_no_trace (b : Builder) (steps : List Operation) :
    (∀ step e, step.isPackages = false → (b.perform step).2 = some e →
      (b.perform step).1 = b ∧
        ∀ later, b.performAll (step :: later) = b.performAll later ∧
          b.history (step :: later) = (step, some e) :: b.history later) ∧
      b.history (b.history steps).strike.steps = (b.history steps).strike ∧
      b.performAll (b.history steps).strike.steps = b.performAll steps := by
  refine ⟨fun step e hstep he => ?_, b.replay_strike steps⟩
  have hrefused := Builder.perform_of_refused hstep he
  refine ⟨by rw [hrefused], fun later => ⟨?_, ?_⟩⟩
  · show (b.perform step).1.performAll later = b.performAll later
    rw [hrefused]
  · rw [Builder.history, hrefused]

set_option maxRecDepth 4000 in
/-- A package can still be exported when its export to a bad name has been refused. -/
theorem api_exported_after_refusal :
    let b := Builder.fresh "app" true []
    let bad : Operation := .exports [] "app.api" ["not valid"] []
    let good : Operation := .exports [] "app.api" [] []
    bad.isPackages = false ∧ (b.perform bad).2 = some (.invalidName .module "not valid") ∧
      (b.perform bad).1 = b ∧
      b.history [bad, good, good] =
        [(bad, some (.invalidName .module "not valid")), (good, none),
          (good, some (.duplicateExports "app.api"))] ∧
      b.performAll [good] = b.performAll [bad, good, good] := by
  intro b bad good
  have hrefused : (b.perform bad).2 = some (.invalidName .module "not valid") := rfl
  have hhistory : b.history [bad, good, good] =
      [(bad, some (.invalidName .module "not valid")), (good, none),
        (good, some (.duplicateExports "app.api"))] := rfl
  obtain ⟨hrefusals, -, hreplay⟩ := refused_directives_leave_no_trace b [bad, good, good]
  rw [hhistory] at hreplay
  exact ⟨rfl, hrefused, (hrefusals bad _ rfl hrefused).1, hhistory, hreplay⟩

/-! ### packages -/

theorem takeWhile_append_of_neg {α : Type} {p : α → Bool} {front back : List α} {bad : α}
    (hfront : ∀ a ∈ front, p a = true) (hbad : p bad = false) :
    (front ++ bad :: back).takeWhile p = front := by
  rw [List.takeWhile_append_of_pos hfront, List.takeWhile_cons_of_neg (by simp [hbad]), List.append_nil]

/-- **A refused list of packages has put in the names in front of the bad one**, and has changed nothing
else; the packages are those of before only if all of these names were among them. -/
theorem refused_packages_keep_front (b after : Builder) (names : List String) (e : BuilderError) :
    b.perform (.packages names) = (after, some e) ↔
      ∃ front bad back, names = front ++ bad :: back ∧ b.strict = true ∧
        (∀ name ∈ front, isPackageName name = true) ∧ isPackageName bad = false ∧
        e = .invalidName .package bad ∧
        after = { b with draft := { b.draft with packages := b.draft.packages.insertAll front } } ∧
        (after.packageSet = b.packageSet ↔ ∀ name ∈ front, name ∈ b.packageSet) := by
  rw [Builder.perform_packages, Prod.mk.injEq, badName?_eq_some_iff]
  constructor
  · rintro ⟨rfl, front, bad, back, rfl, hfront, hbad, rfl⟩
    rw [takeWhile_append_of_neg hfront hbad, Builder.extend_packages]
    obtain ⟨hstrict, hname⟩ := permits_eq_false_iff.1 hbad
    simp only [permits, hstrict] at hfront
    exact ⟨front, bad, back, rfl, hstrict, hfront, hname, rfl, rfl, NameSet.insertAll_eq_self_iff⟩
  · rintro ⟨front, bad, back, rfl, hstrict, hfront, hname, rfl, rfl, -⟩
    have hbad : permits b.strict .package bad = false := permits_eq_false_iff.2 ⟨hstrict, hname⟩
    have hpermitted : ∀ name ∈ front, permits b.strict .package name = true := by
      intro name hmem
      rw [permits, hstrict]
      exact hfront name hmem
    refine ⟨?_, front, bad, back, rfl, hpermitted, hbad, rfl⟩
    rw [takeWhile_append_of_neg hpermitted hbad, Builder.extend_packages]

/-- A good package stays behind when a bad one is refused. -/
theorem ok_package_stays_behind :
    let b := Builder.fresh "app" true []
    let names := ["ok.pkg", "bad pkg"]
    (b.perform (.packages names)).2 = some (.invalidName .package "bad pkg") ∧
      b.packageSet.toList = [] ∧ (b.perform (.packages names)).1.packageSet.toList = ["ok.pkg"] := by
  decide +kernel

end ClassMetadata.Module
