import ClassMetadata.Proofs.Resolution.Mirrors
import Mathlib.Data.List.Induction

/-!
# The name that a type shows

The text of an inner class type is put together from the text of the type around it and what stands behind the
last `$` of the binary name.  The binary name itself is put together from the names along the path, and these
may have a `$` of their own.

* `ResolvedType.withoutArguments`: a type without its argument lists and those of the types around it;
* `shownPath`: a path as a text shows it, the inner names cut behind their last `$`;
* `text_of_mirrorsPath`: **the text of a type without its lists is the binary name of the path as it is
  shown**;
* `binaryName_shownPath_eq_iff`: that is the binary name of the path itself **if no inner name has a `$`, and
  only then**.
-/

namespace ClassMetadata

/-! ### leaving out the lists -/

namespace ResolvedType

variable {κ : Type}

mutual

/-- A class type without type arguments, its own and those of the types around it. -/
def withoutArguments : ResolvedType κ → ResolvedType κ
  | .parameterized raw _ owner => .parameterized raw [] (ownerWithoutArguments owner)
  | t => t

def ownerWithoutArguments : Option (ResolvedType κ) → Option (ResolvedType κ)
  | none => none
  | some owner => some owner.withoutArguments

end

/-- Without a list the text of a class type is its name. -/
theorem text_withoutArguments (raw : Class) (arguments : List (ResolvedType Class))
    (owner : Option (ResolvedType Class)) :
    (parameterized raw arguments owner).withoutArguments.text =
      nameBehind (ownerWithoutArguments owner) raw := by
  rw [withoutArguments, text]
  exact String.append_empty

end ResolvedType

/-! ### simple names -/

theorem simpleName_of_not_mem {name : String} (h : '$' ∉ name.toList) : simpleName name = name := by
  rw [simpleName, cutAtLast_eq_none_iff.mpr h]

theorem simpleName_append {back : String} (h : '$' ∉ back.toList) (front : String) :
    simpleName (front ++ "$" ++ back) = back := by
  have htext : (front ++ "$" ++ back).toList = front.toList ++ '$' :: back.toList := by simp
  rw [simpleName, htext, cutAtLast_append h]
  exact String.ofList_toList

/-- A name is simple, or has a simple name behind its last `$`. -/
theorem simple_or_exists_append (name : String) :
    '$' ∉ name.toList ∨ ∃ front back, name = front ++ "$" ++ back ∧ '$' ∉ back.toList := by
  cases hcut : cutAtLast '$' name.toList with
  | none => exact .inl (cutAtLast_eq_none_iff.mp hcut)
  | some cut =>
    obtain ⟨front, back⟩ := cut
    obtain ⟨htext, hback⟩ := cutAtLast_eq_some_iff.mp hcut
    refine .inr ⟨String.ofList front, String.ofList back, ?_, by rwa [String.toList_ofList]⟩
    rw [← String.toList_inj, htext]
    simp

theorem simpleName_eq_self_iff {name : String} : simpleName name = name ↔ '$' ∉ name.toList := by
  constructor
  · intro h
    rcases simple_or_exists_append name with hname | ⟨front, back, rfl, hback⟩
    · exact hname
    · rw [simpleName_append hback] at h
      rwa [← h]
  · exact simpleName_of_not_mem

theorem length_simpleName_le (name : String) : (simpleName name).length ≤ name.length := by
  rcases simple_or_exists_append name with hname | ⟨front, back, rfl, hback⟩
  · exact Nat.le_of_eq (congrArg String.length (simpleName_of_not_mem hname))
  · rw [simpleName_append hback, String.length_append]
    exact Nat.le_add_left _ _

/-- What stands in front of a `$` does not matter. -/
theorem simpleName_inside (outer name : String) : simpleName (outer ++ "$" ++ name) = simpleName name := by
  rcases simple_or_exists_append name with hname | ⟨front, back, rfl, hback⟩
  · rw [simpleName_append hname, simpleName_of_not_mem hname]
  · have hassoc : outer ++ "$" ++ (front ++ "$" ++ back) = (outer ++ "$" ++ front) ++ "$" ++ back := by
      simp only [String.append_assoc]
    rw [hassoc, simpleName_append hback, simpleName_append hback]

/-! ### paths as they are shown -/

/-- A segment with its simple name. -/
def Segment.simple (s : Segment) : Segment := { s with name := simpleName s.name }

/-- The first name of a path is shown as it is, of the others what stands behind their last `$`. -/
def shownPath : List Segment → List Segment
  | [] => []
  | first :: inner => first :: inner.map Segment.simple

theorem shownPath_append_singleton {path : List Segment} (h : path ≠ []) (s : Segment) :
    shownPath (path ++ [s]) = shownPath path ++ [s.simple] := by
  cases path with
  | nil => exact absurd rfl h
  | cons first inner => simp [shownPath]

theorem shownPath_ne_nil {path : List Segment} (h : path ≠ []) : shownPath path ≠ [] := by
  cases path with
  | nil => exact absurd rfl h
  | cons first inner => exact List.cons_ne_nil _ _

/-- Two texts in two parts, of which none of the first is longer than its counterpart. -/
theorem append_eq_append_iff_of_length_le {a b c d : String} (hfront : a.length ≤ c.length)
    (hback : b.length ≤ d.length) : a ++ b = c ++ d ↔ a = c ∧ b = d := by
  constructor
  · intro h
    have hlength : a.length + b.length = c.length + d.length := by
      rw [← String.length_append, h, String.length_append]
    have hlists : a.toList ++ b.toList = c.toList ++ d.toList := by
      rw [← String.toList_append, h, String.toList_append]
    have hsize : a.toList.length = c.toList.length := by
      rw [String.length_toList, String.length_toList]
      omega
    obtain ⟨hac, hbd⟩ := List.append_inj hlists hsize
    exact ⟨String.toList_inj.mp hac, String.toList_inj.mp hbd⟩
  · rintro ⟨rfl, rfl⟩
    rfl

namespace Registry

theorem binaryName_append_eq {path : List Segment} (h : path ≠ []) (s : Segment) :
    binaryName (path ++ [s]) = binaryName path ++ ("$" ++ s.name) := by
  rw [binaryName_append_singleton h, nameInside, String.append_assoc]

/-- **A path is shown as it is named if no inner name has a `$`**, and only then: a cut name is shorter. -/
theorem binaryName_shownPath_eq_iff (path : List Segment) :
    (binaryName (shownPath path)).length ≤ (binaryName path).length ∧
      (binaryName (shownPath path) = binaryName path ↔ ∀ s ∈ path.tail, '$' ∉ s.name.toList) := by
  induction path using List.reverseRecOn with
  | nil => exact ⟨Nat.le_refl _, by simp [shownPath]⟩
  | append_singleton path s ih =>
    by_cases hpath : path = []
    · subst hpath
      exact ⟨Nat.le_refl _, by simp [shownPath]⟩
    · obtain ⟨hlength, hiff⟩ := ih
      have hback : ("$" ++ simpleName s.name).length ≤ ("$" ++ s.name).length := by
        rw [String.length_append, String.length_append]
        exact Nat.add_le_add_left (length_simpleName_le s.name) _
      have hlast : "$" ++ simpleName s.name = "$" ++ s.name ↔ '$' ∉ s.name.toList := by
        rw [← simpleName_eq_self_iff, String.append_right_inj]
      rw [shownPath_append_singleton hpath, binaryName_append_eq (shownPath_ne_nil hpath),
        binaryName_append_eq hpath]
      constructor
      · rw [String.length_append (binaryName (shownPath path)), String.length_append (binaryName path)]
        exact Nat.add_le_add hlength hback
      · rw [List.tail_append_of_ne_nil hpath, List.forall_mem_append, List.forall_mem_singleton, ← hiff,
          ← hlast]
        exact append_eq_append_iff_of_length_le hlength hback

/-! ### types of paths -/

variable {r : Registry} {scope : Class}

/-- **The type of a path shows the path.** -/
theorem text_of_mirrorsPath {path : List Segment} {t : ResolvedType Class} (h : r.MirrorsPath scope path t) :
    t.withoutArguments.text = binaryName (shownPath path) ∧
      ∃ raw, t.rawClass? = some raw ∧ raw.name = binaryName path := by
  cases h with
  | first hlookup => exact ⟨name_of_lookup hlookup, _, rfl, name_of_lookup hlookup⟩
  | firstWithArguments _ hlookup _ =>
    rw [ResolvedType.text_withoutArguments]
    exact ⟨name_of_lookup hlookup, _, rfl, name_of_lookup hlookup⟩
  | @later path owner name arguments c ts hpath hlookup _ =>
    obtain ⟨howner, -⟩ := text_of_mirrorsPath hpath
    have hraw := name_of_lookup hlookup
    refine ⟨?_, c, rfl, hraw⟩
    rw [binaryName_append_singleton hpath.ne_nil, nameInside] at hraw
    rw [ResolvedType.text_withoutArguments, shownPath_append_singleton hpath.ne_nil,
      binaryName_append_singleton (shownPath_ne_nil hpath.ne_nil), nameInside, Segment.simple,
      ResolvedType.ownerWithoutArguments, ResolvedType.nameBehind, howner, hraw, simpleName_inside]

/-- A signature that resolves to a parameterized type is a class path with type arguments. -/
theorem mirrorsPath_of_resolve {signature : String} {raw : Class} {arguments : List (ResolvedType Class)}
    {owner : Option (ResolvedType Class)}
    (h : r.resolve signature scope = .ok (.parameterized raw arguments owner)) :
    ∃ path, Signature.parse signature = .ok (.classType path) ∧
      r.MirrorsPath scope path (.parameterized raw arguments owner) := by
  unfold resolve at h
  cases hparse : Signature.parse signature with
  | error e =>
    rw [hparse] at h
    cases h
  | ok t =>
    rw [hparse] at h
    cases mirrors_of_resolveTree t h with
    | parameterized _ hpath => exact ⟨_, rfl, hpath⟩

/-- **The text of a parameterized type, its argument lists and those of its owners left out, is the path of
the signature as it is shown.**  It is the binary name of the raw class if no inner name of the path has a
`$`, and only then. -/
theorem shown_name_of_resolve {signature : String} {raw : Class} {arguments : List (ResolvedType Class)}
    {owner : Option (ResolvedType Class)}
    (h : r.resolve signature scope = .ok (.parameterized raw arguments owner)) :
    ∃ path, Signature.parse signature = .ok (.classType path) ∧ raw.name = binaryName path ∧
      (ResolvedType.parameterized raw arguments owner).withoutArguments.text = binaryName (shownPath path) ∧
      ((ResolvedType.parameterized raw arguments owner).withoutArguments.text = raw.name ↔
        ∀ s ∈ path.tail, '$' ∉ s.name.toList) := by
  obtain ⟨path, hparse, hpath⟩ := mirrorsPath_of_resolve h
  obtain ⟨htext, c, hc, hname⟩ := text_of_mirrorsPath hpath
  obtain rfl : raw = c := Option.some.inj hc
  refine ⟨path, hparse, hname, htext, ?_⟩
  rw [htext, hname]
  exact (binaryName_shownPath_eq_iff path).2

/-- An inner class without arguments, behind a class with one plain argument. -/
theorem resolve_inner {signature outer inner argument : String} {c d e : Class}
    (hparse : Signature.parse signature =
      .ok (.classType [⟨outer, [.exactly (.classType [⟨argument, []⟩])]⟩, ⟨inner, []⟩]))
    (hc : r.lookup (binaryName [⟨outer, []⟩]) = some c)
    (hd : r.lookup (binaryName [⟨outer, []⟩, ⟨inner, []⟩]) = some d)
    (he : r.lookup (binaryName [⟨argument, []⟩]) = some e) :
    r.resolve signature scope = .ok (.parameterized d [] (some (.parameterized c [.classType e] none))) := by
  have hargument : r.MirrorsArguments scope [.exactly (.classType [⟨argument, []⟩])] [.classType e] :=
    .cons (.exactly (.plain rfl he)) .nil
  have hpath : r.MirrorsPath scope
      ([⟨outer, [.exactly (.classType [⟨argument, []⟩])]⟩] ++ [⟨inner, []⟩])
      (.parameterized d [] (some (.parameterized c [.classType e] none))) :=
    .later (.firstWithArguments (List.cons_ne_nil _ _) hc hargument) hd .nil
  rw [resolve, hparse]
  exact resolveTree_of_mirrors (.parameterized rfl hpath)

/-- The first name of a path may have a `$`. -/
theorem shown_entry :
    let r : Registry := ⟨[.named .plain "a.M$p", .named .plain "a.M$p$Entry", .named .plain "a.Key"]⟩
    let scope := Class.named .plain "a.Main"
    let entry : ResolvedType Class := .parameterized (.named .plain "a.M$p$Entry") []
      (some (.parameterized (.named .plain "a.M$p") [.classType (.named .plain "a.Key")] none))
    r.resolve "La/M$p<La/Key;>.Entry;" scope = .ok entry ∧ entry.text = "a.M$p<a.Key>$Entry" ∧
      entry.withoutArguments.text = "a.M$p$Entry" ∧
      ∃ path, Signature.parse "La/M$p<La/Key;>.Entry;" = .ok (.classType path) ∧
        ∀ s ∈ path.tail, '$' ∉ s.name.toList := by
  intro r scope entry
  have hparse : Signature.parse "La/M$p<La/Key;>.Entry;" =
      .ok (.classType [⟨"a/M$p", [.exactly (.classType [⟨"a/Key", []⟩])]⟩, ⟨"Entry", []⟩]) := by
    decide +kernel
  have hresolve : r.resolve "La/M$p<La/Key;>.Entry;" scope = .ok entry := resolve_inner hparse rfl rfl rfl
  have htext : entry.withoutArguments.text = "a.M$p$Entry" := by decide +kernel
  obtain ⟨path, hpath, -, -, hshown⟩ := shown_name_of_resolve hresolve
  exact ⟨hresolve, by decide +kernel, htext, path, hpath, hshown.mp htext⟩

/-- An inner name with a `$` is shown in part. -/
theorem inner_name_cut :
    let r : Registry :=
      ⟨[.named .plain "pkg.Outer", .named .plain "pkg.Outer$In$ner", .named .plain "java.lang.String"]⟩
    let scope := Class.named .plain "pkg.Outer"
    let inner := Class.named .plain "pkg.Outer$In$ner"
    let t : ResolvedType Class := .parameterized inner []
      (some (.parameterized (.named .plain "pkg.Outer") [.classType (.named .plain "java.lang.String")] none))
    r.resolve "Lpkg/Outer<Ljava/lang/String;>.In$ner;" scope = .ok t ∧ t.rawClass? = some inner ∧
      t.text = "pkg.Outer<java.lang.String>$ner" ∧ t.withoutArguments.text = "pkg.Outer$ner" ∧
      t.withoutArguments.text ≠ inner.name := by
  intro r scope inner t
  have hparse : Signature.parse "Lpkg/Outer<Ljava/lang/String;>.In$ner;" =
      .ok (.classType
        [⟨"pkg/Outer", [.exactly (.classType [⟨"java/lang/String", []⟩])]⟩, ⟨"In$ner", []⟩]) := by
    decide +kernel
  exact ⟨resolve_inner hparse rfl rfl rfl, rfl, by decide +kernel, by decide +kernel, by decide +kernel⟩

end Registry

end ClassMetadata
