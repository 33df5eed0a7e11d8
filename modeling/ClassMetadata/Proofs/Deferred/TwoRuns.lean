import ClassMetadata.Deferred.Materialization

/-!
# One tree in two contexts

A second context may do better than a first one and still have to agree with it wherever the first one did
not fail in a certain way: a registry with more classes agrees with a smaller one unless that misses a class,
a higher depth limit agrees with a lower one unless that is exceeded.

* `Traced.SameUnless p x y`: `y` is `x`, calls and all, unless `x` ends with an error that is `p`;
* `SameUnless.bind`: it is enough that this is so step by step, since the first failure ends a run, and up to
  it both runs make the same calls;
* `Context.AgreesUnless`: the single questions agree, behind any calls; `sameUnless_value`, `sameUnless_node`:
  **then so do the materializations of every tree**.
-/

namespace ClassMetadata.Deferred

namespace Traced

variable {α β : Type}

/-- The second outcome is the first one, unless that is an error that is `p`. -/
def SameUnless (p : MaterializeError → Prop) (x y : Traced α) : Prop :=
  y = x ∨ ∃ e, p e ∧ x.result = .error e

namespace SameUnless

variable {p : MaterializeError → Prop} {cx cx' : Context}

theorem refl (x : Traced α) : SameUnless p x x := .inl rfl

theorem ofResult (result : Except MaterializeError α) :
    SameUnless p (Asking.ofResult result cx) (Asking.ofResult result cx') := .inl rfl

theorem bind {x y : Asking α} {f g : α → Asking β} (hx : SameUnless p (x cx) (y cx'))
    (hf : ∀ calls a, SameUnless p (f a (cx.behind calls)) (g a (cx'.behind calls))) :
    SameUnless p ((x >>= f) cx) ((y >>= g) cx') := by
  rcases hresult : x cx with ⟨calls, e | a⟩
  · rcases hx with hsame | ⟨e', he', hfailed⟩
    · left
      rw [Asking.bind_of_error hresult, Asking.bind_of_error (hsame.trans hresult)]
    · right
      rw [hresult] at hfailed
      obtain rfl := Except.error.inj hfailed
      exact ⟨e, he', by rw [Asking.bind_of_error hresult]⟩
  · have hsame : y cx' = ⟨calls, .ok a⟩ := by
      rcases hx with hsame | ⟨e', -, hfailed⟩
      · exact hsame.trans hresult
      · rw [hresult] at hfailed
        cases hfailed
    rw [Asking.bind_of_ok hresult, Asking.bind_of_ok hsame]
    rcases hf calls a with hrest | ⟨e, he, hfailed⟩
    · rw [hrest]
      exact refl _
    · exact .inr ⟨e, he, hfailed⟩

/-- Agreement of the same last step, if it asks nothing. -/
theorem map {x y : Asking α} (hx : SameUnless p (x cx) (y cx')) (f : α → β) :
    SameUnless p ((x >>= fun a => pure (f a)) cx) ((y >>= fun a => pure (f a)) cx') :=
  hx.bind fun _ _ => refl _

/-- Where the first outcome is no such error, the second one is the same. -/
theorem eq {x y : Traced α} (h : SameUnless p x y) (hx : ∀ e, p e → x.result ≠ .error e) : y = x := by
  rcases h with hsame | ⟨e, he, hfailed⟩
  · exact hsame
  · exact absurd hfailed (hx e he)

end SameUnless

end Traced

open Traced (SameUnless)

/-- The questions of two contexts have the same answers behind the same calls, unless the first one fails with
an error that is `p`. -/
structure Context.AgreesUnless (p : MaterializeError → Prop) (cx cx' : Context) : Prop where
  askType : ∀ calls signature,
    SameUnless p (askType signature (cx.behind calls)) (askType signature (cx'.behind calls))
  askBuild : ∀ calls type values,
    SameUnless p (askBuild type values (cx.behind calls)) (askBuild type values (cx'.behind calls))
  descend : ∀ depth, SameUnless p (descend depth cx) (descend depth cx')

theorem Context.AgreesUnless.behind {p : MaterializeError → Prop} {cx cx' : Context}
    (h : cx.AgreesUnless p cx') (calls : List Call) :
    (cx.behind calls).AgreesUnless p (cx'.behind calls) where
  askType := by
    intro later signature
    rw [behind_behind, behind_behind]
    exact h.askType (calls ++ later) signature
  askBuild := by
    intro later type values
    rw [behind_behind, behind_behind]
    exact h.askBuild (calls ++ later) type values
  descend := h.descend

section Trees

variable {p : MaterializeError → Prop}

mutual

theorem sameUnless_value : ∀ {cx cx' : Context} (_ : cx.AgreesUnless p cx') (depth : Nat) (v : Value),
    SameUnless p (v.materializeAt depth cx) (v.materializeAt depth cx')
  | _, _, _, _, .literal _ => .refl _
  | _, _, h, _, .classLiteral signature => .map (h.askType [] signature) _
  | _, _, h, _, .enumConstant signature _ => .bind (h.askType [] signature) fun _ _ => .refl _
  | _, _, h, depth, .nested node =>
    (h.descend depth).bind fun calls d => (sameUnless_node (h.behind calls) d node).map _
  | _, _, h, depth, .array elements =>
    (h.descend depth).bind fun calls d => (sameUnless_list (h.behind calls) d elements).map _

theorem sameUnless_list : ∀ {cx cx' : Context} (_ : cx.AgreesUnless p cx') (depth : Nat) (vs : List Value),
    SameUnless p (Value.materializeList depth vs cx) (Value.materializeList depth vs cx')
  | _, _, _, _, [] => .refl _
  | _, _, h, depth, v :: vs =>
    (sameUnless_value h depth v).bind fun calls _ => (sameUnless_list (h.behind calls) depth vs).map _

theorem sameUnless_node : ∀ {cx cx' : Context} (_ : cx.AgreesUnless p cx') (depth : Nat) (node : Node),
    SameUnless p (node.materializeAt depth cx) (node.materializeAt depth cx')
  | _, _, _, _, .resolved _ => .refl _
  | _, _, h, depth, .descriptor signature attributes => by
    refine .bind (h.askType [] signature) fun asked type => ?_
    refine .bind (.ofResult (Context.classOf type)) fun nothing c => ?_
    have hbehind := (h.behind asked).behind nothing
    refine (sameUnless_entries hbehind depth attributes).bind fun calls values => ?_
    exact hbehind.askBuild calls c values

theorem sameUnless_entries : ∀ {cx cx' : Context} (_ : cx.AgreesUnless p cx') (depth : Nat)
    (attributes : List (String × Value)),
    SameUnless p (Value.materializeEntries depth attributes cx)
      (Value.materializeEntries depth attributes cx')
  | _, _, _, _, [] => .refl _
  | _, _, h, depth, (_, v) :: rest =>
    (sameUnless_value h depth v).bind fun calls _ => (sameUnless_entries (h.behind calls) depth rest).map _

end

end Trees

end ClassMetadata.Deferred
