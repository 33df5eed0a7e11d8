import ClassMetadata.Proofs.Module.History
import ClassMetadata.Proofs.Resolution
import ClassMetadata.Environment

/-!
# The live annotations of a module

The annotations of a module are materialized in one go, and those of a directive on their own.  Both stop at
the first failure.  A descriptor as a whole does what its directives do one behind the other, so that without
a state of the collaborators it gives what they give: the annotations of all of them, or the error of the
first one that fails.

* `FirstFailure`: where an attempt on one thing after the other ends;
* `mapM_eq_ok_iff`, `mapM_eq_error_iff`: what comes of such an attempt;
* `materializeEach_annotations`: **a descriptor is materialized directive by directive**, whatever its
  collaborators remember; `materialize_eq_mapM`: the same of the outcomes, if they remember nothing;
* `directives_of_records`: the directives are those of the steps that succeeded, kind by kind;
* `materialize_directive_by_directive` puts these together for every descriptor that is built.
-/

namespace ClassMetadata

/-! ### one thing after the other -/

section Attempts

variable {ε α β : Type} {f : α → Except ε β}

/-- The first failure is that of something in front of which nothing fails. -/
def FirstFailure (f : α → Except ε β) (as : List α) (e : ε) : Prop :=
  ∃ front a back, as = front ++ a :: back ∧ (∀ b ∈ front, ∃ c, f b = .ok c) ∧ f a = .error e

theorem firstFailure_cons_iff {a : α} {as : List α} {e : ε} :
    FirstFailure f (a :: as) e ↔ f a = .error e ∨ (∃ c, f a = .ok c) ∧ FirstFailure f as e := by
  constructor
  · rintro ⟨front, failing, back, heq, hfront, hfailing⟩
    cases front with
    | nil =>
      obtain ⟨rfl, rfl⟩ := List.cons.inj heq
      exact .inl hfailing
    | cons first front =>
      obtain ⟨rfl, rfl⟩ := List.cons.inj heq
      obtain ⟨hfirst, hfront⟩ := List.forall_mem_cons.mp hfront
      exact .inr ⟨hfirst, front, failing, back, rfl, hfront, hfailing⟩
  · rintro (ha | ⟨ha, front, failing, back, rfl, hfront, hfailing⟩)
    · exact ⟨[], a, as, rfl, by simp, ha⟩
    · exact ⟨a :: front, failing, back, rfl, List.forall_mem_cons.mpr ⟨ha, hfront⟩, hfailing⟩

theorem mapM_eq_ok_iff {as : List α} {bs : List β} :
    as.mapM f = .ok bs ↔ List.Forall₂ (fun a b => f a = .ok b) as bs := by
  induction as generalizing bs with
  | nil =>
    rw [List.mapM_nil, List.forall₂_nil_left_iff]
    exact ⟨fun h => (Except.ok.inj h).symm, fun h => h ▸ rfl⟩
  | cons a as ih =>
    rw [List.mapM_cons, bind_eq_ok, List.forall₂_cons_left_iff]
    constructor
    · rintro ⟨b, hb, h⟩
      obtain ⟨rest, hrest, h⟩ := bind_eq_ok.mp h
      exact ⟨b, rest, hb, ih.mp hrest, (Except.ok.inj h).symm⟩
    · rintro ⟨b, rest, hb, hrest, rfl⟩
      exact ⟨b, hb, bind_eq_ok.mpr ⟨rest, ih.mpr hrest, rfl⟩⟩

theorem mapM_eq_error_iff {as : List α} {e : ε} : as.mapM f = .error e ↔ FirstFailure f as e := by
  induction as with
  | nil => simp [FirstFailure, pure, Except.pure]
  | cons a as ih =>
    rw [List.mapM_cons, firstFailure_cons_iff, ← ih]
    cases f a with
    | error cause => simp [Bind.bind, Except.bind]
    | ok b => cases as.mapM f <;> simp [Bind.bind, Except.bind, Pure.pure, Except.pure]

end Attempts

/-- Lists that are joined are gone through as each of them is. -/
theorem mapM_flatMap {m : Type → Type} [Monad m] [LawfulMonad m] {α β γ : Type} (act : β → m γ)
    (list : α → List β) (as : List α) :
    (as.flatMap list).mapM act = List.flatten <$> as.mapM fun a => (list a).mapM act := by
  induction as with
  | nil => simp
  | cons a as ih =>
    rw [List.flatMap_cons, List.mapM_append, ih, List.mapM_cons]
    simp only [map_eq_pure_bind, bind_assoc, pure_bind, List.flatten_cons]

/-! ### one after the other in a context -/

namespace Deferred.Asking

variable {α β : Type} {cx : Context}

theorem result_map (f : α → β) (x : Asking α) : ((f <$> x) cx).result = f <$> (x cx).result := by
  rw [map_eq_pure_bind]
  rcases hx : x cx with ⟨calls, e | a⟩
  · rw [bind_of_error hx]
    rfl
  · rw [bind_of_ok hx]
    rfl

/-- Without a state each thing is done in the same context. -/
theorem result_mapM_of_steady (h : cx.Steady) (act : α → Asking β) (as : List α) :
    (as.mapM act cx).result = as.mapM fun a => (act a cx).result := by
  induction as with
  | nil => rfl
  | cons a as ih =>
    rw [List.mapM_cons, List.mapM_cons, result_bind_of_steady h]
    refine bind_congr fun b => ?_
    rw [result_bind_of_steady h, ih]
    rfl

end Deferred.Asking

namespace Module

open Deferred (Node Context Asking)

/-! ### directives one after the other -/

theorem annotations_eq_flatMap (m : Descriptor) :
    m.annotations = m.directives.flatMap Directive.annotations := by
  simp only [Descriptor.directives, List.flatMap_append, List.flatMap_map]
  rfl

/-- **A descriptor is materialized directive by directive**, each behind the calls for those before it. -/
theorem materializeEach_annotations (m : Descriptor) :
    Node.materializeEach m.annotations =
      List.flatten <$> m.directives.mapM fun d => Node.materializeEach d.annotations := by
  rw [annotations_eq_flatMap, Node.materializeEach, mapM_flatMap]
  rfl

section Steady

variable {cx : Context} (hcx : cx.Steady)

include hcx

theorem materializeAll_eq_mapM (nodes : List Node) :
    Node.materializeAll cx nodes = nodes.mapM (Node.materialize cx) :=
  Asking.result_mapM_of_steady hcx (Node.materializeAt 0) nodes

theorem materialize_eq_mapM (m : Descriptor) :
    m.materialize cx = List.flatten <$> m.directives.mapM (Directive.materialize cx) := by
  rw [Descriptor.materialize, Node.materializeAll, materializeEach_annotations, Asking.result_map,
    Asking.result_mapM_of_steady hcx]
  rfl

theorem materialize_eq_ok_iff {m : Descriptor} {lives : List (Live.Annotation Class)} :
    m.materialize cx = .ok lives ↔
      ∃ parts, List.Forall₂ (fun d part => Directive.materialize cx d = .ok part) m.directives parts ∧
        lives = parts.flatten := by
  rw [materialize_eq_mapM hcx]
  simp only [← mapM_eq_ok_iff]
  cases m.directives.mapM (Directive.materialize cx) with
  | error e => simp [Functor.map, Except.map]
  | ok parts => simp [Functor.map, Except.map, eq_comm]

theorem materialize_eq_error_iff {m : Descriptor} {e : MaterializeError} :
    m.materialize cx = .error e ↔ FirstFailure (Directive.materialize cx) m.directives e := by
  rw [materialize_eq_mapM hcx, ← mapM_eq_error_iff]
  cases m.directives.mapM (Directive.materialize cx) <;> simp [Functor.map, Except.map]

end Steady

/-! ### directives of steps -/

/-- The kinds of directives in the order in which a descriptor lists them. -/
def DirectiveKind.listed : List DirectiveKind := [requires, exports, opens, uses, provides]

/-- The directive of a kind that a step gives. -/
def Operation.directive? (step : Operation) : DirectiveKind → Option Directive
  | .requires => step.requires?.map .requires
  | .exports => step.exports?.map .exports
  | .opens => step.opens?.map .opens
  | .uses => step.uses?.map .uses
  | .provides => step.provides?.map .provides

/-- The directives of a descriptor that records some steps are those of the steps, kind by kind. -/
theorem directives_of_records {m : Descriptor} {steps : List Operation} (h : m.Records steps) :
    m.directives =
      DirectiveKind.listed.flatMap fun kind => steps.filterMap (Operation.directive? · kind) := by
  rw [Descriptor.directives, h.requires, h.exports, h.opens, h.uses, h.provides]
  simp only [List.map_filterMap, DirectiveKind.listed, List.flatMap_cons, List.flatMap_nil, List.append_nil,
    List.append_assoc]
  rfl

/-- **A module is materialized directive by directive.**  The directives are those of the steps that
succeeded, kind by kind and in the order of the steps.  The descriptor is materialized as they are, one behind
the other.  If the answers do not depend on earlier calls, it gives the annotations of all of them, joined, if
all of them give theirs; else it fails as the first directive that fails, which fails as its first annotation
that fails.  An environment gives the same for the annotations of the directives as one list. -/
theorem materialize_directive_by_directive {name : String} {strict : Bool} {modifiers : List ModuleModifier}
    {b : Builder} (hb : Builder.new name strict modifiers = .ok b) (steps : List Operation) :
    let m := (b.performAll steps).build
    let done := (b.history steps).successes
    m.directives = (DirectiveKind.listed.flatMap fun kind => done.filterMap (Operation.directive? · kind)) ∧
      (Node.materializeEach m.annotations =
        List.flatten <$> m.directives.mapM fun d => Node.materializeEach d.annotations) ∧
      (∀ cx : Context, cx.Steady →
        (∀ lives, m.materialize cx = .ok lives ↔
          ∃ parts, List.Forall₂ (fun d part => Directive.materialize cx d = .ok part) m.directives parts ∧
            lives = parts.flatten) ∧
        (∀ e, m.materialize cx = .error e ↔ FirstFailure (Directive.materialize cx) m.directives e) ∧
        ∀ d ∈ m.directives, ∀ e, d.materialize cx = .error e ↔
          FirstFailure (Node.materialize cx) d.annotations e) ∧
      m.annotations = m.directives.flatMap Directive.annotations ∧
      ∀ (env : Environment) (scope : Class),
        m.materialize (env.context scope) = env.materializeAll m.annotations scope := by
  intro m done
  obtain ⟨-, rfl⟩ := Builder.new_eq_ok_iff.1 hb
  have hrecords : m.Records done := ((follows_fresh name strict modifiers).performAll steps).records
  refine ⟨directives_of_records hrecords, materializeEach_annotations m, fun cx hcx => ?_,
    annotations_eq_flatMap m, fun env scope => rfl⟩
  refine ⟨fun lives => materialize_eq_ok_iff hcx, fun e => materialize_eq_error_iff hcx, fun d _ e => ?_⟩
  rw [Directive.materialize, materializeAll_eq_mapM hcx, mapM_eq_error_iff]

set_option maxRecDepth 4000 in
/-- What a module requires comes first, also when it is added last; the failure is that of the second
annotation of the service. -/
theorem library_before_service :
    let mark := Class.named .annotationInterface "Mark"
    let env := Environment.ofRegistry (Registry.empty.register mark)
    let cx := env.context mark
    let known : Node := .descriptor "LMark;" []
    let unknown : Node := .descriptor "LSeal;" []
    let steps : List Operation := [.uses "app.Spi" [known, unknown], .requires [] "lib" none [known]]
    let b := Builder.fresh "app" true []
    let m := (b.performAll steps).build
    Builder.new "app" true [] = .ok b ∧
      m.directives = [.requires ⟨[], "lib", none, [known]⟩, .uses ⟨"app.Spi", [known, unknown]⟩] ∧
      m.materialize cx = .error (.resolution (.classNotFound "Seal")) := by
  intro mark env cx known unknown steps b m
  have hnew : Builder.new "app" true [] = .ok b := Builder.new_eq_ok_iff.2 ⟨by decide +kernel, rfl⟩
  obtain ⟨hdirectives, -, hsteady, -, -⟩ := materialize_directive_by_directive hnew steps
  obtain ⟨-, herror, hdirective⟩ := hsteady cx (env.steady_context mark)
  have hhistory : b.history steps = steps.map fun step => (step, none) := rfl
  have hlisted : m.directives =
      [.requires ⟨[], "lib", none, [known]⟩, .uses ⟨"app.Spi", [known, unknown]⟩] := by
    rw [hdirectives, hhistory]
    rfl
  have hknown : ∃ live, known.materialize cx = .ok live := ⟨⟨mark, []⟩, rfl⟩
  have hservice : Directive.materialize cx (.uses ⟨"app.Spi", [known, unknown]⟩) =
      .error (.resolution (.classNotFound "Seal")) := by
    refine (hdirective _ ?_ _).mpr ⟨[known], unknown, [], rfl, List.forall_mem_singleton.mpr hknown, rfl⟩
    rw [hlisted]
    simp
  have hlibrary : ∃ lives, Directive.materialize cx (.requires ⟨[], "lib", none, [known]⟩) = .ok lives :=
    ⟨[⟨mark, []⟩], rfl⟩
  have hfailure : m.materialize cx = .error (.resolution (.classNotFound "Seal")) :=
    (herror _).mpr ⟨[_], _, [], hlisted, List.forall_mem_singleton.mpr hlibrary, hservice⟩
  exact ⟨hnew, hlisted, hfailure⟩

end Module

end ClassMetadata
