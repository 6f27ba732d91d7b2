/-
Module: SignatureLattice.Proofs.Association
Purpose: When the order in which three signatures are joined does not matter. An upper bound drops
  the type of further arguments unless both operands have one, while a position that one operand
  does not cover lets the other operand's formal pass. So what a variadic signature demands past its
  last formal bears on the formals of the third one or is lost, as the order has it; and a formal
  that an upper bound drops, because further arguments say it again, is lost when the third one
  takes none. The two orders agree exactly when nothing of this makes a difference wherever
  signatures are joined, at every depth. Lower bounds lose nothing.
Main exports: Shape.Retained, Shape.Regroups, Signature.bound_assoc_iff,
  Signature.regroups_of_aligned, Signature.bound_assoc, join_assoc_iff
-/
import Mathlib
import SignatureLattice.Proofs.Fitting
import SignatureLattice.Proofs.Throughout

namespace SignatureLattice

open Outcome

/-!
### Regrouping
-/

/-- Nothing that `s` and `t` demand of `v` is lost in their upper bound `u`: where only one of them
    takes further arguments, those give way to the formals of `v` past both; and where `v` takes no
    further arguments, no formal that it does not cover is dropped from the bound. -/
structure Shape.Retained (s t u v : Shape) : Prop where
  left : t.rest = none → ∀ i, max s.span t.span ≤ i → i < v.span →
    Slot.GivesWay .meet s.rest (v.formalAt? i)
  right : s.rest = none → ∀ i, max s.span t.span ≤ i → i < v.span →
    Slot.GivesWay .meet t.rest (v.formalAt? i)
  span : v.rest = none → max s.span t.span ≤ max u.span v.span

/-- Three shapes regroup when the upper bound of the first two loses nothing for the third one, and
    that of the last two loses nothing for the first one. -/
structure Shape.Regroups (s t v : Shape) : Prop where
  first : ∀ u, Signature.combine .join (.shaped s) (.shaped t) = .ok (.shaped u) →
    s.Retained t u v
  last : ∀ u, Signature.combine .join (.shaped t) (.shaped v) = .ok (.shaped u) →
    t.Retained v u s

/-!
### Two upper bounds of three shapes
-/

/-- What an exact slot holds gives way to a type when merging them leaves the type as it is. -/
theorem Slot.givesWay_some_iff {bound : Bound} {x : Slot} {c : Ty} (hx : Slot.Exact x)
    (hc : c.Exact) :
    Slot.GivesWay bound x (some c) ↔ Option.merge (Ty.bound bound) x (some c) = some c := by
  cases x with
  | none => simp [Slot.GivesWay]
  | some a => simp [Slot.GivesWay, Ty.givesWay_iff (hx a rfl) hc]

namespace Shape

variable {s t u v w l r : Shape}

theorem Retained.comm (h : s.Retained t u v) : t.Retained s u v where
  left := Nat.max_comm .. ▸ h.right
  right := Nat.max_comm .. ▸ h.left
  span := Nat.max_comm s.span t.span ▸ h.span

/-- An upper bound that takes no further arguments has kept every formal. -/
theorem Pointwise.span_of_rest (hs : (Signature.shaped s).Exact) (ht : (Signature.shaped t).Exact)
    (h : Pointwise .join s t u) (rest : u.rest = none) : max s.span t.span ≤ u.span := by
  by_contra less
  have near : u.span < max s.span t.span := Nat.lt_of_not_le less
  have present := isSome_formalAt?_of_lt_max hs.own.1 ht.own.1 near
  rw [← Bool.or_eq_true, ← Option.isSome_merge, ← h.formalAt? u.span near,
    formalAt?_of_le (Nat.le_refl _), rest] at present
  exact Bool.noConfusion present

/-- Where an upper bound demands nothing though one of the operands does, it is past both. -/
theorem Pointwise.past_of_absent (h : Pointwise .join s t u) {i : Nat}
    (absent : u.formalAt? i = none) (present : (s.formalAt? i).isSome) :
    max s.span t.span ≤ i := by
  by_contra less
  rw [h.formalAt? i (Nat.lt_of_not_le less), Option.merge_eq_none_iff] at absent
  rw [absent.1] at present
  exact Bool.noConfusion present

/-- If nothing is lost for a third shape, then as far as the first two reach its bound with theirs
    demands what the two bounded shapes demand. -/
private theorem formalAt?_near (hs : (Signature.shaped s).Exact) (ht : (Signature.shaped t).Exact)
    (first : Pointwise .join s t u) (second : Pointwise .join u v l) (retained : s.Retained t u v)
    {i : Nat} (near : i < max s.span t.span) :
    l.formalAt? i = Option.merge (Ty.bound .meet) (u.formalAt? i) (v.formalAt? i) := by
  by_cases inside : i < max u.span v.span
  · exact second.formalAt? i inside
  · have past := Nat.le_of_not_lt inside
    have pastl : l.formalAt? i = Option.map₂ (Ty.bound .meet) u.rest v.rest :=
      (formalAt?_of_le (Nat.le_trans second.span past)).trans second.rest
    -- A formal is dropped here, so both the bound and the third shape take further arguments.
    obtain ⟨a, ha⟩ : ∃ a, u.rest = some a := Option.ne_none_iff_exists'.1 fun rest => by
      have kept := first.span_of_rest hs ht rest
      omega
    obtain ⟨c, hc⟩ : ∃ c, v.rest = some c := Option.ne_none_iff_exists'.1 fun rest => by
      have kept := retained.span rest
      omega
    rw [pastl, formalAt?_of_le (Nat.le_trans (Nat.le_max_left ..) past),
      formalAt?_of_le (Nat.le_trans (Nat.le_max_right ..) past), ha, hc]
    rfl

/-- And past the first two it demands what all three demand. -/
private theorem formalAt?_far (hs : (Signature.shaped s).Exact) (ht : (Signature.shaped t).Exact)
    (hv : (Signature.shaped v).Exact) (first : Pointwise .join s t u) (retained : s.Retained t u v)
    {i : Nat} (past : max s.span t.span ≤ i) (inside : i < v.span) :
    Option.merge (Ty.bound .meet) (u.formalAt? i) (v.formalAt? i) =
      Option.merge (Ty.bound .meet)
        (Option.merge (Ty.bound .meet) (s.formalAt? i) (t.formalAt? i)) (v.formalAt? i) := by
  obtain ⟨c, hc⟩ := exists_formalAt? hv.own.1 inside
  have exactc : c.Exact := exact_formalAt? hv i c hc
  have pastu : u.formalAt? i = Option.map₂ (Ty.bound .meet) s.rest t.rest :=
    (formalAt?_of_le (Nat.le_trans first.span past)).trans first.rest
  rw [pastu, hc, formalAt?_of_le (Nat.le_trans (Nat.le_max_left ..) past),
    formalAt?_of_le (Nat.le_trans (Nat.le_max_right ..) past)]
  cases hx : s.rest with
  | none =>
      have gives := retained.right hx i past inside
      rw [hc, Slot.givesWay_some_iff (exact_rest ht) exactc] at gives
      rw [Option.map₂_none_left, Option.merge_none_left, Option.merge_none_left, gives]
  | some a =>
      cases hy : t.rest with
      | none =>
          have gives := retained.left hy i past inside
          rw [hc, Slot.givesWay_some_iff (exact_rest hs) exactc, hx] at gives
          rw [Option.map₂_none_right, Option.merge_none_left, Option.merge_none_right, gives]
      | some b => rfl

/-- If nothing is lost for the third shape, then the upper bound of the bound of two shapes and the
    third one demands what all three demand, as far as any of them reaches. -/
private theorem formalAt?_of_retained (hs : (Signature.shaped s).Exact)
    (ht : (Signature.shaped t).Exact) (hv : (Signature.shaped v).Exact)
    (first : Pointwise .join s t u) (second : Pointwise .join u v l) (retained : s.Retained t u v)
    {i : Nat} (hi : i < max (max s.span t.span) v.span) :
    l.formalAt? i = Option.merge (Ty.bound .meet)
      (Option.merge (Ty.bound .meet) (s.formalAt? i) (t.formalAt? i)) (v.formalAt? i) := by
  by_cases near : i < max s.span t.span
  · rw [formalAt?_near hs ht first second retained near, first.formalAt? i near]
    rfl
  · have past := Nat.le_of_not_lt near
    have inside : i < v.span := by omega
    rw [← formalAt?_far hs ht hv first retained past inside]
    exact second.formalAt? i (Nat.lt_of_lt_of_le inside (Nat.le_max_right ..))

/-- A formal that the bound of two shapes drops is missing from the bound with a third one that
    does not cover it, but not from the bound in the other order. -/
private theorem span_of_agree (hs : (Signature.shaped s).Exact) (ht : (Signature.shaped t).Exact)
    (first : Pointwise .join s t u) (second : Pointwise .join u v l)
    (last : Pointwise .join t v w) (whole : Pointwise .join s w r)
    (agree : ∀ i, l.formalAt? i = r.formalAt? i) (absent : v.rest = none) :
    max s.span t.span ≤ max u.span v.span := by
  by_contra less
  have further : u.rest.isSome := Option.isSome_iff_ne_none.2 fun rest => by
    have kept := first.span_of_rest hs ht rest
    omega
  rw [first.rest] at further
  obtain ⟨further, furthert⟩ : s.rest.isSome ∧ t.rest.isSome := by
    simpa [Bound.pick, Option.isSome_iff_ne_none, Option.map₂_eq_none_iff, not_or] using further
  -- At the last position that either of the first two shapes covers, both orders demand nothing,
  -- though both of these shapes demand something there.
  obtain ⟨i, hi⟩ : ∃ i, i + 1 = max s.span t.span := ⟨_, Nat.sub_add_cancel (by omega)⟩
  have silent : r.formalAt? i = none := by
    rw [← agree, formalAt?_of_le (Nat.le_trans second.span (by omega)), second.rest, absent]
    exact Option.map₂_none_right ..
  have past := whole.past_of_absent silent (isSome_formalAt?_of_rest hs.own.1 further i)
  have none : w.formalAt? i = none := by
    rw [formalAt?_of_le (by omega), last.rest, absent]
    exact Option.map₂_none_right ..
  have beyond := last.past_of_absent none (isSome_formalAt?_of_rest ht.own.1 furthert i)
  omega

/-- Past two shapes of which one takes no further arguments, a third one prevails in the bound with
    theirs. -/
private theorem formalAt?_prevails (first : Pointwise .join s t u) (second : Pointwise .join u v l)
    (absent : s.rest = none ∨ t.rest = none) {i : Nat} (past : max s.span t.span ≤ i)
    (inside : i < v.span) : l.formalAt? i = v.formalAt? i := by
  have silent : u.formalAt? i = none := by
    rw [formalAt?_of_le (Nat.le_trans first.span past), first.rest]
    exact Option.map₂_eq_none_iff.2 absent
  rw [second.formalAt? i (Nat.lt_of_lt_of_le inside (Nat.le_max_right ..)), silent,
    Option.merge_none_left]

/-- If the two orders come to the same, then nothing of the first two shapes is lost for the third
    one: in the other order all that they demand is there. -/
private theorem retained_of_agree (hs : (Signature.shaped s).Exact)
    (ht : (Signature.shaped t).Exact) (hv : (Signature.shaped v).Exact)
    (hw : (Signature.shaped w).Exact) (first : Pointwise .join s t u)
    (second : Pointwise .join u v l) (last : Pointwise .join t v w)
    (whole : Pointwise .join s w r) (agree : ∀ i, l.formalAt? i = r.formalAt? i) :
    s.Retained t u v := by
  have pasts : ∀ i, max s.span t.span ≤ i → s.formalAt? i = s.rest := fun i past =>
    formalAt?_of_le (Nat.le_trans (Nat.le_max_left ..) past)
  have pastt : ∀ i, max s.span t.span ≤ i → t.formalAt? i = t.rest := fun i past =>
    formalAt?_of_le (Nat.le_trans (Nat.le_max_right ..) past)
  refine ⟨fun absent i past inside a c ha hc => ?_, fun absent i past inside b c hb hc => ?_,
    span_of_agree hs ht first second last whole agree⟩
  · rw [Ty.givesWay_iff (exact_rest hs a ha) (exact_formalAt? hv i c hc)]
    have passed : w.formalAt? i = some c := by
      rw [last.formalAt? i (Nat.lt_of_lt_of_le inside (Nat.le_max_right ..)), pastt i past, absent,
        hc, Option.merge_none_left]
    have merged := whole.formalAt?_some ((pasts i past).trans ha) passed
    rw [← agree, formalAt?_prevails first second (.inr absent) past inside, hc] at merged
    exact (Option.some.inj merged).symm
  · rw [Ty.givesWay_iff (exact_rest ht b hb) (exact_formalAt? hv i c hc)]
    have passed := last.formalAt?_some ((pastt i past).trans hb) hc
    have prevailed : r.formalAt? i = some c := by
      rw [← agree, formalAt?_prevails first second (.inl absent) past inside, hc]
    exact ((whole.comm hs hw).formalAt?_left passed ((pasts i past).trans absent) prevailed).symm

/-!
### Three shapes, position by position
-/

/-- The bounds of a type with two others associate just when shapes regroup throughout them. -/
private def RegroupsAt (a : Ty) : Prop :=
  ∀ (bound : Bound) (b c : Ty), a.Exact → b.Exact → c.Exact →
    (Ty.bound bound (Ty.bound bound a b) c = Ty.bound bound a (Ty.bound bound b c) ↔
      Ty.Throughout Regroups bound a b c)

section

variable {bound : Bound} {x y z : Slot}

private theorem merge_assoc_of (ih : ∀ a, x = some a → RegroupsAt a) (hx : Slot.Exact x)
    (hy : Slot.Exact y) (hz : Slot.Exact z) (regroups : Slot.Throughout Regroups bound x y z) :
    Option.merge (Ty.bound bound) (Option.merge (Ty.bound bound) x y) z =
      Option.merge (Ty.bound bound) x (Option.merge (Ty.bound bound) y z) := by
  match x, y, z with
  | some a, some b, some c =>
      exact congrArg some ((ih a rfl bound b c (hx a rfl) (hy b rfl) (hz c rfl)).2
        (regroups a b c rfl rfl rfl))
  | none, _, _ => simp
  | some _, none, _ => simp
  | some _, some _, none => simp

private theorem map₂_assoc_iff (ih : ∀ a, x = some a → RegroupsAt a) (hx : Slot.Exact x)
    (hy : Slot.Exact y) (hz : Slot.Exact z) :
    Option.map₂ (Ty.bound bound) (Option.map₂ (Ty.bound bound) x y) z =
        Option.map₂ (Ty.bound bound) x (Option.map₂ (Ty.bound bound) y z) ↔
      Slot.Throughout Regroups bound x y z := by
  match x, y, z with
  | some a, some b, some c =>
      simpa [Slot.Throughout] using ih a rfl bound b c (hx a rfl) (hy b rfl) (hz c rfl)
  | none, _, _ => simp [Slot.Throughout]
  | some _, none, _ => simp [Slot.Throughout]
  | some _, some _, none => simp [Slot.Throughout]

end

/-- What two bounds of three shapes demand where all three demand something. -/
private theorem formals_iff {bound : Bound} (ih : ∀ a, some a ∈ s.slots → RegroupsAt a)
    (hs : (Signature.shaped s).Exact) (ht : (Signature.shaped t).Exact)
    (hv : (Signature.shaped v).Exact) (first : Pointwise bound s t u)
    (second : Pointwise bound u v l) (last : Pointwise bound t v w)
    (whole : Pointwise bound s w r) {i : Nat} {a b c : Ty} (ha : s.formalAt? i = some a)
    (hb : t.formalAt? i = some b) (hc : v.formalAt? i = some c) :
    l.formalAt? i = r.formalAt? i ↔ Ty.Throughout Regroups bound.dual a b c := by
  rw [second.formalAt?_some (first.formalAt?_some ha hb) hc,
    whole.formalAt?_some ha (last.formalAt?_some hb hc), Option.some.injEq]
  exact ih a (ha ▸ s.formalAt?_mem_slots i) bound.dual b c (exact_formalAt? hs i a ha)
    (exact_formalAt? ht i b hb) (exact_formalAt? hv i c hc)

/-- The upper bounds of exact shapes are the ones that are asked about. -/
private theorem regroups_iff (hs : (Signature.shaped s).Exact) (ht : (Signature.shaped t).Exact)
    (hv : (Signature.shaped v).Exact) (hu : (Signature.shaped u).Exact)
    (hw : (Signature.shaped w).Exact) (first : Pointwise .join s t u)
    (last : Pointwise .join t v w) :
    s.Regroups t v ↔ s.Retained t u v ∧ t.Retained v w s := by
  have lower := Signature.combine_eq_bound .join hs.deeplyValid ht.deeplyValid
  rw [(bound_eq_iff hs ht hu).2 first] at lower
  have upper := Signature.combine_eq_bound .join ht.deeplyValid hv.deeplyValid
  rw [(bound_eq_iff ht hv hw).2 last] at upper
  constructor
  · rintro ⟨retained, kept⟩
    exact ⟨retained u lower, kept w upper⟩
  · rintro ⟨retained, kept⟩
    refine ⟨fun u' eq => ?_, fun w' eq => ?_⟩
    · obtain rfl : u = u' := Signature.shaped.inj (Except.ok.inj (lower.symm.trans eq))
      exact retained
    · obtain rfl : w = w' := Signature.shaped.inj (Except.ok.inj (upper.symm.trans eq))
      exact kept

section

variable {bound : Bound} (ih : ∀ a, some a ∈ s.slots → RegroupsAt a)
  (hs : (Signature.shaped s).Exact) (ht : (Signature.shaped t).Exact)
  (hv : (Signature.shaped v).Exact)
include ih hs ht hv

/-- Two upper bounds that lose nothing demand the same at every position. -/
private theorem agree_of_retained (first : Pointwise .join s t u) (second : Pointwise .join u v l)
    (last : Pointwise .join t v w) (whole : Pointwise .join s w r) (hw : (Signature.shaped w).Exact)
    (retained : s.Retained t u v) (kept : t.Retained v w s)
    (formals : ∀ i, Slot.Throughout Regroups .meet (s.formalAt? i) (t.formalAt? i)
      (v.formalAt? i)) (i : Nat) : l.formalAt? i = r.formalAt? i := by
  have exact := exact_formalAt? hs i
  by_cases inside : i < max (max s.span t.span) v.span
  · have inside' : i < max (max t.span v.span) s.span := by omega
    rw [formalAt?_of_retained hs ht hv first second retained inside,
      formalAt?_of_retained ht hv hs last (whole.comm hs hw) kept inside',
      Slot.merge_comm .meet (Slot.exact_merge .meet (exact_formalAt? ht i) (exact_formalAt? hv i))
        exact]
    exact merge_assoc_of (fun a ha => ih a (ha ▸ s.formalAt?_mem_slots i)) exact
      (exact_formalAt? ht i) (exact_formalAt? hv i) (formals i)
  · -- Past all three shapes the rests are left, and a bound has one only if all three have.
    have rests := formals i
    rw [formalAt?_of_le (by omega), formalAt?_of_le (by omega), formalAt?_of_le (by omega)] at rests
    have upper := second.span
    have lower := first.span
    have upper' := whole.span
    have lower' := last.span
    rw [formalAt?_of_le (by omega), formalAt?_of_le (by omega), second.rest, first.rest, whole.rest,
      last.rest]
    exact (map₂_assoc_iff (fun a ha => ih a (ha ▸ s.rest_mem_slots)) (exact_rest hs)
      (exact_rest ht) (exact_rest hv)).2 rests

/-- The two orders of bounding three shapes come to the same just when shapes regroup throughout. -/
private theorem eq_iff_throughout (hu : (Signature.shaped u).Exact)
    (hw : (Signature.shaped w).Exact) (hl : (Signature.shaped l).Exact)
    (hr : (Signature.shaped r).Exact) (first : Pointwise bound s t u)
    (second : Pointwise bound u v l) (last : Pointwise bound t v w)
    (whole : Pointwise bound s w r) :
    l = r ↔ Signature.Throughout Regroups bound (.shaped s) (.shaped t) (.shaped v) := by
  have results : l.result = r.result ↔
      Slot.Throughout Regroups bound s.result t.result v.result := by
    rw [second.result, first.result, whole.result, last.result]
    exact map₂_assoc_iff (fun a ha => ih a (ha ▸ s.result_mem_slots)) (exact_result hs)
      (exact_result ht) (exact_result hv)
  rw [Signature.throughout_shaped_iff, ← results]
  constructor
  · rintro rfl
    refine ⟨?_, fun i a b c ha hb hc => ?_, rfl⟩
    · rintro rfl
      have other := retained_of_agree hv ht hs hu (last.comm ht hv) (whole.comm hs hw)
        (first.comm hs ht) (second.comm hu hv) fun i => rfl
      exact (regroups_iff hs ht hv hu hw first last).2
        ⟨retained_of_agree hs ht hv hw first second last whole fun i => rfl, other.comm⟩
    · exact (formals_iff ih hs ht hv first second last whole ha hb hc).1 rfl
  · rintro ⟨own, formals, result⟩
    refine ext_of_formalAt? hl hr ?_ (fun i => ?_) result
    · rw [second.required, first.required, whole.required, last.required]
      cases bound with
      | join => exact Nat.max_assoc ..
      | meet => exact Nat.min_assoc ..
    · cases bound with
      | join =>
          obtain ⟨retained, kept⟩ := (regroups_iff hs ht hv hu hw first last).1 (own rfl)
          exact agree_of_retained ih hs ht hv first second last whole hw retained kept formals i
      | meet =>
          rw [second.formalAt?_meet, first.formalAt?_meet, whole.formalAt?_meet,
            last.formalAt?_meet]
          exact merge_assoc_of (fun a ha => ih a (ha ▸ s.formalAt?_mem_slots i))
            (exact_formalAt? hs i) (exact_formalAt? ht i) (exact_formalAt? hv i) (formals i)

private theorem bound_assoc_iff_of :
    Signature.bound bound (Signature.bound bound (.shaped s) (.shaped t)) (.shaped v) =
        Signature.bound bound (.shaped s) (Signature.bound bound (.shaped t) (.shaped v)) ↔
      Signature.Throughout Regroups bound (.shaped s) (.shaped t) (.shaped v) := by
  obtain ⟨u, equ, first⟩ := exists_pointwise bound hs ht
  obtain ⟨w, eqw, last⟩ := exists_pointwise bound ht hv
  have hu : (Signature.shaped u).Exact := equ ▸ Signature.exact_bound bound hs ht
  have hw : (Signature.shaped w).Exact := eqw ▸ Signature.exact_bound bound ht hv
  obtain ⟨l, eql, second⟩ := exists_pointwise bound hu hv
  obtain ⟨r, eqr, whole⟩ := exists_pointwise bound hs hw
  have hl : (Signature.shaped l).Exact := eql ▸ Signature.exact_bound bound hu hv
  have hr : (Signature.shaped r).Exact := eqr ▸ Signature.exact_bound bound hs hw
  rw [equ, eqw, eql, eqr, Signature.shaped.injEq]
  exact eq_iff_throughout ih hs ht hv hu hw hl hr first second last whole

end

end Shape

/-!
### Signatures
-/

/-- Where one of three signatures is a top sentinel, the order of the bounds does not matter. -/
private theorem Signature.bound_assoc_of_top (bound : Bound) {f g h : Signature} (hf : f.Exact)
    (hg : g.Exact) (hh : h.Exact) (extreme : f.isTop ∨ g.isTop ∨ h.isTop) :
    Signature.bound bound (Signature.bound bound f g) h =
      Signature.bound bound f (Signature.bound bound g h) := by
  match f, g, h with
  | .top loose, g, h =>
      rw [Signature.top_of_exact hf, Signature.bound_top, Signature.bound_top]
      cases bound <;> simp [Bound.pick]
  | .shaped s, .top loose, h =>
      rw [Signature.top_of_exact hg, Signature.bound_top, Signature.bound_top_right bound hf]
      cases bound with
      | join => simp [Bound.pick, hf]
      | meet => rfl
  | .shaped s, .shaped t, .top loose =>
      rw [Signature.top_of_exact hh, Signature.bound_top_right bound hg,
        Signature.bound_top_right bound (Signature.exact_bound bound hf hg)]
      cases bound with
      | join => simp [Bound.pick, hf]
      | meet => rfl
  | .shaped s, .shaped t, .shaped v => simp [Signature.isTop] at extreme

private theorem Signature.bound_assoc_iff_of {bound : Bound} {f g h : Signature}
    (ih : ∀ a, some a ∈ f.slots → Shape.RegroupsAt a) (hf : f.Exact) (hg : g.Exact)
    (hh : h.Exact) :
    Signature.bound bound (Signature.bound bound f g) h =
        Signature.bound bound f (Signature.bound bound g h) ↔
      Signature.Throughout Shape.Regroups bound f g h := by
  by_cases extreme : f.isTop ∨ g.isTop ∨ h.isTop
  · exact iff_of_true (Signature.bound_assoc_of_top bound hf hg hh extreme) (.top extreme)
  · match f, g, h with
    | .shaped s, .shaped t, .shaped v => exact Shape.bound_assoc_iff_of ih hf hg hh
    | .top _, _, _ | .shaped _, .top _, _ | .shaped _, .shaped _, .top _ =>
        simp [Signature.isTop] at extreme

/-!
### Types
-/

private theorem Callable.bound_assoc_iff_of (bound : Bound) {f g h : Callable}
    (signatures : ∀ f' g' h', f = some f' → g = some g' → h = some h' →
      (Signature.bound bound (Signature.bound bound f' g') h' =
          Signature.bound bound f' (Signature.bound bound g' h') ↔
        Signature.Throughout Shape.Regroups bound f' g' h')) :
    Callable.bound bound (Callable.bound bound f g) h =
        Callable.bound bound f (Callable.bound bound g h) ↔
      ∀ f' g' h', f = some f' → g = some g' → h = some h' →
        Signature.Throughout Shape.Regroups bound f' g' h' := by
  cases f with
  -- An absent part is the least one, which bounds associate with.
  | none => cases g <;> cases h <;> cases bound <;> simp [Callable.bound, Bound.pick]
  | some f =>
      cases g with
      | none => cases h <;> cases bound <;> simp [Callable.bound, Bound.pick]
      | some g =>
          cases h with
          | none => cases bound <;> simp [Callable.bound, Bound.pick]
          | some h => simpa [Callable.bound] using signatures f g h rfl rfl rfl

/-- Where one of three types is extreme, the order of the bounds does not matter. -/
private theorem Ty.bound_assoc_of_extreme (bound : Bound) {a b c : Ty} (ha : a.Exact)
    (hb : b.Exact) (hc : c.Exact) (extreme : a.isExtreme ∨ b.isExtreme ∨ c.isExtreme) :
    Ty.bound bound (Ty.bound bound a b) c = Ty.bound bound a (Ty.bound bound b c) := by
  match a, b, c with
  | .top, _, _ | _, .top, _ | _, _, .top => cases bound <;> simp [Bound.pick]
  | .unknown, .unknown, .unknown | .unknown, .unknown, .union .. | .unknown, .union .., .unknown
  | .union .., .unknown, .unknown | .union .., .unknown, .union .. =>
      cases bound <;> simp [Bound.pick]
  | .unknown, .union q d g, .union r e h =>
      have union := Ty.bound_union bound hb hc
      rw [union]
      cases bound <;> simp [Bound.pick, union]
  | .union p c f, .union q d g, .unknown =>
      have union := Ty.bound_union bound ha hb
      rw [union]
      cases bound <;> simp [Bound.pick, union]
  | .union .., .union .., .union .. => simp [Ty.isExtreme, Ty.isTop, Ty.isUnknown] at extreme

private theorem Ty.regroupsAt (a : Ty) : Shape.RegroupsAt a := by
  have extremes : ∀ {bound : Bound} {a b c : Ty}, a.Exact → b.Exact → c.Exact →
      a.isExtreme ∨ b.isExtreme ∨ c.isExtreme →
      (Ty.bound bound (Ty.bound bound a b) c = Ty.bound bound a (Ty.bound bound b c) ↔
        Ty.Throughout Shape.Regroups bound a b c) := fun ha hb hc extreme =>
    iff_of_true (Ty.bound_assoc_of_extreme _ ha hb hc extreme) (Ty.throughout_of_extreme extreme)
  induction a using Ty.nested_induction with
  | top => exact fun _ _ _ ha hb hc => extremes ha hb hc (.inl rfl)
  | unknown => exact fun _ _ _ ha hb hc => extremes ha hb hc (.inl rfl)
  | union p classes f ih =>
      intro bound b c ha hb hc
      match b, c with
      | .top, _ => exact extremes ha hb hc (.inr (.inl rfl))
      | .unknown, _ => exact extremes ha hb hc (.inr (.inl rfl))
      | .union .., .top => exact extremes ha hb hc (.inr (.inr rfl))
      | .union .., .unknown => exact extremes ha hb hc (.inr (.inr rfl))
      | .union q d g, .union r e h =>
          obtain ⟨canonicala, hf⟩ := Ty.all_union.1 ha
          obtain ⟨canonicalb, hg⟩ := Ty.all_union.1 hb
          obtain ⟨canonicalc, hh⟩ := Ty.all_union.1 hc
          have first := Ty.exact_bound bound ha hb
          have last := Ty.exact_bound bound hb hc
          rw [Ty.bound_union bound ha hb] at first ⊢
          rw [Ty.bound_union bound hb hc] at last ⊢
          rw [Ty.bound_union bound first hc, Ty.bound_union bound ha last, Primitives.pick_assoc,
            ClassSet.pick_assoc bound canonicala canonicalb canonicalc, Ty.union.injEq]
          have callable := Callable.bound_assoc_iff_of bound fun f' g' h' eqf eqg eqh =>
            Signature.bound_assoc_iff_of (ih f' eqf) (hf f' eqf) (hg g' eqg) (hh h' eqh)
          simpa [Ty.Throughout, Ty.callable?] using callable

/-- The bounds of exact signatures associate just when shapes regroup throughout them. -/
theorem Signature.bound_assoc_iff {bound : Bound} {f g h : Signature} (hf : f.Exact)
    (hg : g.Exact) (hh : h.Exact) :
    Signature.bound bound (Signature.bound bound f g) h =
        Signature.bound bound f (Signature.bound bound g h) ↔
      Signature.Throughout Shape.Regroups bound f g h :=
  Signature.bound_assoc_iff_of (fun a _ => a.regroupsAt) hf hg hh

/-!
### What is left of shapes that regroup
-/

section

variable {s t u v : Shape}

theorem Shape.retained_forget :
    (s.forget true).Retained (t.forget true) (u.forget true) (v.forget true) ↔
      s.Retained t u v := by
  constructor
  · rintro ⟨left, right, span⟩
    simp only [forget_span, forget_rest, forget_formalAt?, Slot.forget_eq_none_iff,
      Slot.givesWay_forget] at left right span
    exact ⟨left, right, span⟩
  · rintro ⟨left, right, span⟩
    refine ⟨?_, ?_, ?_⟩
    · simpa [Slot.givesWay_forget] using left
    · simpa [Slot.givesWay_forget] using right
    · simpa using span

/-- The upper bound of what is left of two shapes is what is left of their upper bound. -/
private theorem Shape.combine_forget_iff {w : Shape} :
    Signature.combine .join (.shaped (s.forget true)) (.shaped (t.forget true)) =
        .ok (.shaped w) ↔
      ∃ u, Signature.combine .join (.shaped s) (.shaped t) = .ok (.shaped u) ∧
        u.forget true = w := by
  have left := Signature.combine_forget .join (.shaped s) (.shaped t)
  rw [Signature.forget_shaped, Signature.forget_shaped] at left
  rw [left, map_eq_ok]
  constructor
  · rintro ⟨z, eq, rest⟩
    cases z with
    | top loose => simp at rest
    | shaped u => exact ⟨u, eq, by simpa using rest⟩
  · rintro ⟨u, eq, rfl⟩
    exact ⟨.shaped u, eq, Signature.forget_shaped u⟩

theorem Shape.regroups_forget :
    (s.forget true).Regroups (t.forget true) (v.forget true) ↔ s.Regroups t v := by
  constructor
  · rintro ⟨first, last⟩
    exact ⟨fun u eq => retained_forget.1 (first _ (combine_forget_iff.2 ⟨u, eq, rfl⟩)),
      fun w eq => retained_forget.1 (last _ (combine_forget_iff.2 ⟨w, eq, rfl⟩))⟩
  · rintro ⟨first, last⟩
    refine ⟨fun u' eq => ?_, fun w' eq => ?_⟩
    · obtain ⟨u, bounded, rfl⟩ := combine_forget_iff.1 eq
      exact retained_forget.2 (first u bounded)
    · obtain ⟨w, bounded, rfl⟩ := combine_forget_iff.1 eq
      exact retained_forget.2 (last w bounded)

end

/-!
### Aligned signatures
-/

namespace Shape

variable {s t u v : Shape}

/-- Where only one of two shapes with matching tails takes further arguments, it takes any. -/
theorem TailsMatch.eq_top (h : s.TailsMatch t) (absent : t.rest = none) {a : Ty}
    (ha : s.rest = some a) : a = .top := by
  simpa [TailsMatch, ha, absent, Ty.isTop_iff] using h

theorem TailsMatch.givesWay (h : s.TailsMatch t) (absent : t.rest = none) (x : Slot) :
    Slot.GivesWay .meet s.rest x := by
  intro a c ha _
  rw [h.eq_top absent ha]
  exact Ty.givesWay_top c

/-- Two shapes that take further arguments of every type are bounded by one that keeps each formal:
    a formal that is left out would be what the longer one says of further arguments anyway. -/
theorem Pointwise.span_of_tops (hs : (Signature.shaped s).Exact)
    (ht : (Signature.shaped t).Exact) (first : Pointwise .join s t u) (further : s.rest = some .top)
    (furthert : t.rest = some .top) : s.span ≤ u.span := by
  by_contra longer
  have less := Nat.lt_of_not_le longer
  obtain ⟨a, ha⟩ := exists_formalAt? hs.own.1 (Nat.sub_one_lt_of_lt less)
  obtain ⟨b, hb⟩ := Option.isSome_iff_exists.1
    (isSome_formalAt?_of_rest ht.own.1 (furthert ▸ rfl) (s.span - 1))
  have required : s.required.length ≤ u.required.length := by
    rw [first.required]
    exact Nat.le_max_left ..
  have optional : s.required.length < s.span :=
    Nat.lt_of_le_of_lt (Nat.le_trans required (Nat.le_add_right ..)) less
  have rest : u.rest = some .top := by
    rw [first.rest, further, furthert]
    exact congrArg some (Ty.bound_top .meet .top)
  have merged := first.formalAt?_some ha hb
  rw [formalAt?_of_le (Nat.le_sub_one_of_lt less), rest] at merged
  obtain ⟨rfl, -⟩ := (Ty.bound_meet_eq_top (exact_formalAt? hs _ a ha)
    (exact_formalAt? ht _ b hb)).1 (Option.some.inj merged).symm
  exact last_ne_rest hs.own.2.1 optional (further ▸ rfl) (ha.trans further.symm)

/-- Shapes whose tails match lose nothing for one another. -/
private theorem retained_of_tailsMatch (hs : (Signature.shaped s).Exact)
    (ht : (Signature.shaped t).Exact) (first : Pointwise .join s t u) (hst : s.TailsMatch t)
    (hts : t.TailsMatch s) (hsv : s.TailsMatch v) (htv : t.TailsMatch v) :
    s.Retained t u v where
  left absent i _ _ := hst.givesWay absent _
  right absent i _ _ := hts.givesWay absent _
  span absent := by
    refine Nat.le_trans ?_ (Nat.le_max_left ..)
    cases rest : u.rest with
    | none => exact first.span_of_rest hs ht rest
    | some r =>
        obtain ⟨a, b, ha, hb, -⟩ := Option.map₂_eq_some_iff.1 (first.rest.symm.trans rest)
        obtain rfl := hsv.eq_top absent ha
        obtain rfl := htv.eq_top absent hb
        exact Nat.max_le.2 ⟨first.span_of_tops hs ht ha hb,
          (first.comm hs ht).span_of_tops ht hs hb ha⟩

private theorem regroups_of_tailsMatch (hs : (Signature.shaped s).Exact)
    (ht : (Signature.shaped t).Exact) (hv : (Signature.shaped v).Exact) (hst : s.TailsMatch t)
    (hsv : s.TailsMatch v) (htv : t.TailsMatch v) : s.Regroups t v := by
  refine ⟨fun u eq => ?_, fun w eq => ?_⟩
  · have hu := Signature.bound_eq_of_combine eq
    have exact : (Signature.shaped u).Exact := hu ▸ Signature.exact_bound .join hs ht
    exact retained_of_tailsMatch hs ht ((bound_eq_iff hs ht exact).1 hu) hst hst.comm hsv htv
  · have hw := Signature.bound_eq_of_combine eq
    have exact : (Signature.shaped w).Exact := hw ▸ Signature.exact_bound .join ht hv
    exact retained_of_tailsMatch ht hv ((bound_eq_iff ht hv exact).1 hw) htv htv.comm hst.comm
      hsv.comm

end Shape

/-- The callable part of what an exact slot holds is exact. -/
theorem Slot.Exact.callable? {x : Slot} (hx : Slot.Exact x) {f : Signature}
    (h : Slot.callable? x = some f) : f.Exact := by
  obtain ⟨a, rfl, eq⟩ := Option.bind_eq_some_iff.1 h
  cases a with
  | top => simp [Ty.callable?] at eq
  | unknown => simp [Ty.callable?] at eq
  | union p c callable => exact (Ty.all_union.1 (hx _ rfl)).2 f eq

/-- Aligned exact signatures regroup throughout. -/
theorem Signature.regroups_of_aligned {bound : Bound} {f g h : Signature} (hf : f.Exact)
    (hg : g.Exact) (hh : h.Exact) (hfg : f.Aligned bound g) (hfh : f.Aligned bound h)
    (hgh : g.Aligned bound h) : Signature.Throughout Shape.Regroups bound f g h := by
  induction hfg generalizing h with
  | top_left => exact .top (.inl rfl)
  | top_right => exact .top (.inr (.inl rfl))
  | @shaped bound s t tails formals results ihformals ihresults =>
      cases hfh with
      | top_right => exact .top (.inr (.inr rfl))
      | @shaped _ _ v tailsfh formalsfh resultsfh =>
          cases hgh with
          | shaped tailsgh formalsgh resultsgh =>
              refine .shaped ?_ (fun i f g h eqf eqg eqh => ?_) (fun f g h eqf eqg eqh => ?_)
              · rintro rfl
                exact Shape.regroups_of_tailsMatch hf hg hh (tails rfl) (tailsfh rfl) (tailsgh rfl)
              · exact ihformals i f g eqf eqg ((Shape.exact_formalAt? hf i).callable? eqf)
                  ((Shape.exact_formalAt? hg i).callable? eqg)
                  ((Shape.exact_formalAt? hh i).callable? eqh) (formalsfh i f h eqf eqh)
                  (formalsgh i g h eqg eqh)
              · exact ihresults f g eqf eqg ((Shape.exact_result hf).callable? eqf)
                  ((Shape.exact_result hg).callable? eqg) ((Shape.exact_result hh).callable? eqh)
                  (resultsfh f h eqf eqh) (resultsgh g h eqg eqh)

/-- The bounds of aligned exact signatures associate. -/
theorem Signature.bound_assoc {bound : Bound} {f g h : Signature} (hf : f.Exact) (hg : g.Exact)
    (hh : h.Exact) (hfg : f.Aligned bound g) (hfh : f.Aligned bound h) (hgh : g.Aligned bound h) :
    Signature.bound bound (Signature.bound bound f g) h =
      Signature.bound bound f (Signature.bound bound g h) :=
  (Signature.bound_assoc_iff hf hg hh).2 (Signature.regroups_of_aligned hf hg hh hfg hfh hgh)

/-!
### Main theorem
-/

/-- Both orders of two joins among three definite signatures yield a signature. The two signatures
    are equal exactly when shapes regroup throughout, and they are if the three are aligned. -/
theorem join_assoc_iff {f g h : Signature} (hf : f.Definite) (hg : g.Definite) (hh : h.Definite) :
    ∃ l r : Signature,
      (do Callable.join (← Callable.join (some f) (some g)) (some h)) = .ok (some l) ∧
      (do Callable.join (some f) (← Callable.join (some g) (some h))) = .ok (some r) ∧
      (l.same r = true ↔ Signature.Throughout Shape.Regroups .join f g h) ∧
      (f.Aligned .join g → f.Aligned .join h → g.Aligned .join h → l.same r = true) := by
  have fg := Signature.deeplyValid_bound .join hf.valid hg.valid
  have gh := Signature.deeplyValid_bound .join hg.valid hh.valid
  have iff : (Signature.bound .join (Signature.bound .join f g) h).same
      (Signature.bound .join f (Signature.bound .join g h)) = true ↔
        Signature.Throughout Shape.Regroups .join f g h := by
    have exactfg := Signature.exact_bound .join hf.exact hg.exact
    have exactgh := Signature.exact_bound .join hg.exact hh.exact
    rw [← Signature.same_forget true true, Signature.forget_bound .join fg hh.valid,
      Signature.forget_bound .join hf.valid hg.valid, Signature.forget_bound .join hf.valid gh,
      Signature.forget_bound .join hg.valid hh.valid,
      Signature.same_iff_eq (Signature.exact_bound .join exactfg hh.exact)
        (Signature.exact_bound .join hf.exact exactgh),
      Signature.bound_assoc_iff hf.exact hg.exact hh.exact]
    exact Signature.throughout_forget (fun _ _ _ => Shape.regroups_forget) .join f g h
  refine ⟨Signature.bound .join (Signature.bound .join f g) h,
    Signature.bound .join f (Signature.bound .join g h), ?_, ?_, iff, fun hfg hfh hgh => ?_⟩
  · rw [Callable.join, Callable.combine_eq_bound .join hf.valid hg.valid]
    exact Callable.combine_eq_bound .join fg hh.valid
  · rw [Callable.join, Callable.combine_eq_bound .join hg.valid hh.valid]
    exact Callable.combine_eq_bound .join hf.valid gh
  · rw [iff, ← Signature.throughout_forget (fun _ _ _ => Shape.regroups_forget)]
    exact Signature.regroups_of_aligned hf.exact hg.exact hh.exact hfg.forget hfh.forget hgh.forget

/-- The theorem at a variadic signature and two fixed ones of different arities, each of which
    returns a signature like itself: what the variadic one demands gives way to the formal of the
    third one, so that the order does not matter though the first two are not aligned. -/
theorem join_assoc_mixed :
    let wide : Ty := .ofPrimitives { number := true, string := true }
    let narrow : Ty := .ofPrimitives { string := true }
    let variadic (result : Ty) : Shape := { rest := some wide, result := some result }
    let nullary (result : Ty) : Shape := { result := some result }
    let unary (result : Ty) : Shape := { required := [some narrow], result := some result }
    let f : Signature := .shaped (variadic (.callableOf (.shaped (variadic .bottom))))
    let g : Signature := .shaped (nullary (.callableOf (.shaped (nullary .bottom))))
    let h : Signature := .shaped (unary (.callableOf (.shaped (unary .bottom))))
    ¬ f.Aligned .join g ∧ ∃ l r : Signature,
      (do Callable.join (← Callable.join (some f) (some g)) (some h)) = .ok (some l) ∧
      (do Callable.join (some f) (← Callable.join (some g) (some h))) = .ok (some r) ∧
      l.same r = true := by
  intro wide narrow variadic nullary unary f g h
  have gives : Slot.GivesWay .meet (some wide) (some narrow) := by
    rintro _ _ ⟨⟩ ⟨⟩
    exact ⟨narrow, by cbv, rfl⟩
  have own : ∀ a b c, (variadic a).Regroups (nullary b) (unary c) := fun a b c =>
    { first := fun u _ =>
        { left := fun _ i _ inside => Nat.lt_one_iff.1 inside ▸ gives
          right := fun absent => absurd absent (Option.some_ne_none wide)
          span := fun _ => Nat.zero_le _ }
      last := fun w _ =>
        { left := fun _ i _ inside => absurd inside (Nat.not_lt_zero i)
          right := fun _ i _ inside => absurd inside (Nat.not_lt_zero i)
          span := fun absent => absurd absent (Option.some_ne_none wide) } }
  have level : ∀ a b c, Slot.Throughout Shape.Regroups .join (some a) (some b) (some c) →
      Signature.Throughout Shape.Regroups .join (.shaped (variadic a)) (.shaped (nullary b))
        (.shaped (unary c)) := by
    intro a b c results
    refine Signature.throughout_shaped_iff.2 ⟨fun _ => own a b c, fun i => ?_, results⟩
    -- The nullary signature demands nothing at any position.
    intro _ _ _ _ present
    cases present
  have throughout : Signature.Throughout Shape.Regroups .join f g h := by
    refine level _ _ _ ?_
    rintro _ _ _ ⟨⟩ ⟨⟩ ⟨⟩ _ _ _ ⟨⟩ ⟨⟩ ⟨⟩
    refine level _ _ _ ?_
    rintro _ _ _ ⟨⟩ ⟨⟩ ⟨⟩ _ _ _ absent
    cases absent
  refine ⟨fun aligned => ?_, ?_⟩
  · simpa [Shape.TailsMatch, variadic, nullary, wide, Ty.ofPrimitives, Ty.isTop]
      using aligned.tails rfl
  · obtain ⟨l, r, left, right, regroups, -⟩ := join_assoc_iff (f := f) (g := g) (h := h)
      ⟨by decide, by decide, by decide⟩ ⟨by decide, by decide, by decide⟩
      ⟨by decide, by decide, by decide⟩
    exact ⟨l, r, left, right, regroups.2 throughout⟩

/-- Without alignment the order may matter: a variadic signature bears on the formal of the third
    one unless it is joined with the fixed one first. -/
theorem join_assoc_fails :
    let f : Signature := .shaped
      { rest := some (.ofPrimitives { number := true }), result := some .bottom }
    let g : Signature := .shaped { result := some .bottom }
    let h : Signature := .shaped
      { required := [some (.ofPrimitives { string := true })], result := some .bottom }
    let r : Signature := .shaped { required := [some .bottom], result := some .bottom }
    f.Definite ∧ g.Definite ∧ h.Definite ∧
      (do Callable.join (← Callable.join (some f) (some g)) (some h)) = .ok (some h) ∧
      (do Callable.join (some f) (← Callable.join (some g) (some h))) = .ok (some r) ∧
      h.same r = false := by
  intro f g h r
  have definite : f.Definite ∧ g.Definite ∧ h.Definite :=
    ⟨⟨by decide, by decide, by decide⟩, ⟨by decide, by decide, by decide⟩,
      ⟨by decide, by decide, by decide⟩⟩
  exact ⟨definite.1, definite.2.1, definite.2.2, by cbv, by cbv, rfl⟩

end SignatureLattice
