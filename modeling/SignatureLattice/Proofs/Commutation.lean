/-
Module: SignatureLattice.Proofs.Commutation
Purpose: The order of the operands of a bound does not matter: both orders fail, or both yield equal
  results. Nothing is asked of the operands but that their class sets are canonical, so formals and
  results may be absent at any depth. Which error is reported may depend on the order.
Main exports: Agree, Ty.combine_comm, Signature.combine_comm, bounds_comm
-/
import SignatureLattice.Proofs.Regularity

namespace SignatureLattice

open Outcome

/-!
### Slots
-/

/-- Types that are the same when everything that equality passes over is forgotten. -/
private def Alike (a b : Ty) : Prop :=
  a.forget false = b.forget false

private def SlotsAlike (x y : Slot) : Prop :=
  Slot.forget false x = Slot.forget false y

private def anyErrors (_ _ : Violation) : Prop :=
  True

/-- Both orders of two types go the same way. -/
private def Commutes (a b : Ty) : Prop :=
  a.Regular → b.Regular → ∀ bound : Bound,
    Related anyErrors Alike (Ty.combine bound a b) (Ty.combine bound b a)

private theorem Slot.either_comm_of {bound : Bound} {x y : Slot}
    (ih : ∀ a, x = some a → ∀ b, Commutes a b) (hx : ∀ a, x = some a → a.Regular)
    (hy : ∀ b, y = some b → b.Regular) :
    Related anyErrors SlotsAlike (Slot.either bound x y) (Slot.either bound y x) := by
  cases x with
  | none => cases y <;> simp [Slot.either, SlotsAlike]
  | some a =>
      cases y with
      | none => simp [Slot.either, SlotsAlike]
      | some b =>
          rw [Slot.either, Slot.either]
          apply (ih a rfl b (hx a rfl) (hy b rfl) bound).map
          intro u v alike
          exact congrArg some alike

private theorem Slot.both_comm_of {bound : Bound} {x y : Slot}
    (ih : ∀ a, x = some a → ∀ b, Commutes a b) (hx : ∀ a, x = some a → a.Regular)
    (hy : ∀ b, y = some b → b.Regular) :
    Related anyErrors SlotsAlike (Slot.both bound x y) (Slot.both bound y x) := by
  cases x with
  | none => cases y <;> simp [Slot.both, SlotsAlike]
  | some a =>
      cases y with
      | none => simp [Slot.both, SlotsAlike]
      | some b =>
          rw [Slot.both, Slot.both]
          apply (ih a rfl b (hx a rfl) (hy b rfl) bound).map
          intro u v alike
          exact congrArg some alike

private theorem Slot.require_alike {violation : Violation} {x y : Slot} (h : SlotsAlike x y) :
    Related anyErrors Alike (Slot.require violation x) (Slot.require violation y) := by
  cases x with
  | none =>
      cases y with
      | none => exact trivial
      | some b => simp [SlotsAlike] at h
  | some a =>
      cases y with
      | none => simp [SlotsAlike] at h
      | some b => exact Option.some.inj h

/-!
### Shapes
-/

theorem MergeRule.of_comm (bound : Bound) (s t : Shape) :
    MergeRule.of bound s t = MergeRule.of bound t s := by
  rw [MergeRule.of, MergeRule.of, Bool.or_comm]

theorem MergeRule.requiredCount_comm (rule : MergeRule) (m n : Nat) :
    rule.requiredCount m n = rule.requiredCount n m := by
  unfold MergeRule.requiredCount
  split
  · exact Nat.max_comm m n
  · exact Nat.min_comm m n
  · exact Nat.min_comm m n

private theorem Shape.validateForMerge_comm (s t : Shape) :
    Related anyErrors (fun _ _ => True) (Shape.validateForMerge s t)
      (Shape.validateForMerge t s) := by
  unfold Shape.validateForMerge
  rw [Nat.max_comm t.span s.span]
  split
  · exact trivial
  · cases s.validate <;> cases t.validate <;> exact trivial

private theorem MergeRule.assemble_alike {rule : MergeRule} {s t : Shape}
    {formals formals' : List Ty} {rest rest' : Slot} {result result' : Ty}
    (hformals : List.Forall₂ Alike formals formals') (hrest : SlotsAlike rest rest')
    (hresult : Alike result result') :
    (rule.assemble s t formals rest result).forget false =
      (rule.assemble t s formals' rest' result').forget false := by
  have lists :
      formals.map (Slot.forget false ∘ some) = formals'.map (Slot.forget false ∘ some) := by
    rw [← List.forall₂_eq_eq_eq, List.forall₂_map_left_iff, List.forall₂_map_right_iff]
    exact hformals.imp fun _ _ alike => congrArg some alike
  simp only [MergeRule.assemble, Shape.forget_eq, List.map_map, List.map_take, List.map_drop,
    lists, rule.requiredCount_comm t.required.length, Bool.false_and, Slot.forget_some]
  rw [show Slot.forget false rest = _ from hrest, show result.forget false = _ from hresult]

private theorem Shape.merge_comm_of {bound : Bound} {s t : Shape}
    (ih : ∀ a, some a ∈ s.slots → ∀ b, Commutes a b) (hs : (Signature.shaped s).Regular)
    (ht : (Signature.shaped t).Regular) :
    Related anyErrors (fun u v => u.forget false = v.forget false) (Shape.merge bound s t)
      (Shape.merge bound t s) := by
  have parallel : ∀ {x y : Slot}, x ∈ s.slots → y ∈ t.slots →
      Slot.Parallel anyErrors SlotsAlike x y y x := by
    intro x y hx hy
    have commutes : ∀ a, x = some a → ∀ b, Commutes a b := fun a ha => ih a (ha ▸ hx)
    have regularx : ∀ a, x = some a → a.Regular := fun a ha => hs.slot (ha ▸ hx)
    have regulary : ∀ b, y = some b → b.Regular := fun b hb => ht.slot (hb ▸ hy)
    exact ⟨fun _ => Slot.either_comm_of commutes regularx regulary,
      fun _ => Slot.both_comm_of commutes regularx regulary⟩
  refine Shape.merge_related (MergeRule.of_comm bound s t) (Shape.validateForMerge_comm s t)
    (Nat.max_comm s.span t.span)
    (fun i => parallel (s.formalAt?_mem_slots i) (t.formalAt?_mem_slots i))
    (parallel s.rest_mem_slots t.rest_mem_slots) (parallel s.result_mem_slots t.result_mem_slots)
    rfl Slot.require_alike fun hformals hrest hresult => ?_
  rw [← Shape.normalized_forget, ← Shape.normalized_forget,
    MergeRule.assemble_alike hformals hrest hresult]

theorem Signature.same_comm (f g : Signature) : f.same g = g.same f := by
  rw [Bool.eq_iff_iff, Signature.same_iff, Signature.same_iff, eq_comm]

theorem Shape.same_comm (s t : Shape) : s.same t = t.same s :=
  Signature.same_comm (.shaped s) (.shaped t)

/-- In both orders an operand is the bound already, or in none. -/
theorem Shape.dominant?_comm (bound : Bound) (s t : Shape) :
    (Shape.dominant? bound s t).map (Shape.forget false) =
      (Shape.dominant? bound t s).map (Shape.forget false) := by
  have equal : s.same t = true → s.forget false = t.forget false := (Shape.same_iff s t).1
  have least : ∀ u : Shape, u.isBottom = true → u.forget false = Shape.bottom := fun u h => by
    simpa using (Shape.same_iff u .bottom).1 h
  unfold Shape.dominant?
  rw [Shape.same_comm t s]
  cases bound with
  | join =>
      cases same : s.same t with
      | true => simp [equal same]
      | false =>
          cases hs : s.isBottom with
          | false => cases ht : t.isBottom <;> simp
          | true =>
              cases ht : t.isBottom with
              | false => simp
              | true => simp [least s hs, least t ht]
  | meet =>
      cases same : s.same t with
      | true => simp [equal same]
      | false => simp

private theorem Signature.combine_comm_of {bound : Bound} {f g : Signature}
    (ih : ∀ a, some a ∈ f.slots → ∀ b, Commutes a b) (hf : f.Regular) (hg : g.Regular) :
    Related anyErrors (fun u v => u.forget false = v.forget false) (Signature.combine bound f g)
      (Signature.combine bound g f) := by
  match f, g with
  | .top _, .top _ => cases bound <;> simp [Signature.combine, Bound.pick]
  | .top _, .shaped t => cases bound <;> simp [Signature.combine, Bound.pick]
  | .shaped s, .top _ => cases bound <;> simp [Signature.combine, Bound.pick]
  | .shaped s, .shaped t =>
      rw [Signature.combine, Signature.combine]
      have dominant := Shape.dominant?_comm bound s t
      cases hst : Shape.dominant? bound s t with
      | some u =>
          cases hts : Shape.dominant? bound t s with
          | some v => simpa [hst, hts] using dominant
          | none => simp [hst, hts] at dominant
      | none =>
          cases hts : Shape.dominant? bound t s with
          | some v => simp [hst, hts] at dominant
          | none =>
              exact (Shape.merge_comm_of ih hf hg).map fun u v alike =>
                congrArg Signature.shaped alike

private theorem Callable.combine_comm_of {bound : Bound} {f g : Callable}
    (signatures : ∀ f' g', f = some f' → g = some g' →
      Related anyErrors (fun u v => u.forget false = v.forget false)
        (Signature.combine bound f' g') (Signature.combine bound g' f')) :
    Related anyErrors (fun u v => Callable.forget false u = Callable.forget false v)
      (Callable.combine bound f g) (Callable.combine bound g f) := by
  cases f with
  | none => cases g <;> simp [Callable.combine]
  | some f =>
      cases g with
      | none => simp [Callable.combine]
      | some g =>
          rw [Callable.combine, Callable.combine]
          exact (signatures f g rfl rfl).map fun u v alike => congrArg some alike

theorem Ty.combine_comm_of_extreme {a b : Ty} (h : (a.isExtreme || b.isExtreme) = true)
    (bound : Bound) : Ty.combine bound a b = Ty.combine bound b a := by
  cases a <;> cases b <;> simp_all [Ty.combine, Ty.isExtreme, Ty.isTop, Ty.isUnknown]

private theorem Ty.commutes (a b : Ty) : Commutes a b := by
  induction a, b using Ty.pair_induction with
  | extreme a b extreme =>
      intro _ _ bound
      rw [Ty.combine_comm_of_extreme extreme bound]
      cases Ty.combine bound b a with
      | error v => exact trivial
      | ok z => exact Eq.refl (z.forget false)
  | union p c f q d g ih =>
      intro ha hb bound
      obtain ⟨hc, hf⟩ := Ty.all_union.1 ha
      obtain ⟨hd, hg⟩ := Ty.all_union.1 hb
      rw [Ty.combine_union, Ty.combine_union, Primitives.pick_comm bound q p,
        ClassSet.pick_comm bound hd hc]
      refine (Callable.combine_comm_of fun f' g' hf' hg' =>
        Signature.combine_comm_of (ih f' hf') (hf f' hf') (hg g' hg')).map fun u v alike => ?_
      simp only [Callable.forget_eq] at alike
      simp only [Alike, Ty.forget_union, alike]

/-- Both orders of two regular types go the same way. -/
theorem Ty.combine_comm (bound : Bound) {a b : Ty} (ha : a.Regular) (hb : b.Regular) :
    Related (fun _ _ => True) (fun u v => u.forget false = v.forget false)
      (Ty.combine bound a b) (Ty.combine bound b a) :=
  Ty.commutes a b ha hb bound

/-- Both orders of two regular signatures go the same way. -/
theorem Signature.combine_comm (bound : Bound) {f g : Signature} (hf : f.Regular)
    (hg : g.Regular) :
    Related (fun _ _ => True) (fun u v => u.forget false = v.forget false)
      (Signature.combine bound f g) (Signature.combine bound g f) :=
  Signature.combine_comm_of (fun a _ b => Ty.commutes a b) hf hg

/-!
### Main theorem
-/

/-- Two outcomes agree when both are failures, or both are results and these are equal. -/
def Agree {α : Type} (same : α → α → Bool) : Except Violation α → Except Violation α → Prop
  | .ok a, .ok b => same a b = true
  | .error _, .error _ => True
  | _, _ => False

private theorem agree_of_related {α : Type} {same : α → α → Bool} {r : α → α → Prop}
    (equal : ∀ a b, r a b → same a b = true) {x y : Except Violation α}
    (h : Related anyErrors r x y) : Agree same x y := by
  cases x with
  | error v =>
      cases y with
      | error w => exact trivial
      | ok b => exact h
  | ok a =>
      cases y with
      | error w => exact h
      | ok b => exact equal a b h

/-- Bounds commute: for regular operands, which may be absent or incomplete at any depth, both
    orders of two signatures, and both orders of two types, fail together or yield equal results. -/
theorem bounds_comm {f g : Callable} {x y : Slot} (hf : ∀ f', f = some f' → f'.Regular)
    (hg : ∀ g', g = some g' → g'.Regular) (hx : ∀ a, x = some a → a.Regular)
    (hy : ∀ b, y = some b → b.Regular) :
    Agree Callable.same (Callable.join f g) (Callable.join g f) ∧
      Agree Callable.same (Callable.meet f g) (Callable.meet g f) ∧
      Agree Ty.same (Slot.join x y) (Slot.join y x) ∧
      Agree Ty.same (Slot.meet x y) (Slot.meet y x) := by
  have signatures : ∀ bound, Agree Callable.same (Callable.combine bound f g)
      (Callable.combine bound g f) := fun bound =>
    agree_of_related (fun u v => (Callable.same_iff u v).2)
      (Callable.combine_comm_of fun f' g' hf' hg' =>
        Signature.combine_comm bound (hf f' hf') (hg g' hg'))
  have types : ∀ bound, Agree Ty.same (Slot.combine bound x y) (Slot.combine bound y x) :=
    fun bound => agree_of_related (fun a b => (Ty.same_iff a b).2)
      ((Slot.both_comm_of (fun a _ b => Ty.commutes a b) hx hy).bind
        fun _ _ => Slot.require_alike)
  exact ⟨signatures .join, signatures .meet, types .join, types .meet⟩

/-- The theorem where one formal is absent and the other operand is loose and has no result, so that
    bounds fail, and where a variadic constructor of a loosely typed formal meets a loose signature
    of another arity, so that they yield something. -/
theorem bounds_comm_incomplete :
    let foo : NamedClass := ⟨"Foo", 0⟩
    let f : Signature := .shaped
      { required := [none, some (.instanceOf foo)], result := some .unknown }
    let g : Signature := .shaped { rest := some (.callableOf f), loose := true }
    let h : Signature := .shaped
      { required := [some (.callableOf (.top true))], rest := some (.instanceOf foo),
        result := some .unknown, owner := some foo }
    let k : Signature := .shaped
      { optional := [some (.callableOf .bottom), some .top], result := some .bottom, loose := true }
    Agree Callable.same (Callable.join (some f) (some g)) (Callable.join (some g) (some f)) ∧
      Agree Ty.same (Slot.meet none (some (.callableOf g)))
        (Slot.meet (some (.callableOf g)) none) ∧
      (Callable.join (some h) (some k)).isOk = true ∧
      Agree Callable.same (Callable.join (some h) (some k)) (Callable.join (some k) (some h)) ∧
      (Slot.meet (some (.callableOf h)) (some (.callableOf k))).isOk = true ∧
      Agree Ty.same (Slot.meet (some (.callableOf h)) (some (.callableOf k)))
        (Slot.meet (some (.callableOf k)) (some (.callableOf h))) := by
  intro foo f g h k
  have hf : f.Regular := by decide
  have hg : g.Regular := by decide
  have hh : h.Regular := by decide
  have hk : k.Regular := by decide
  have inside : ∀ {u : Signature}, u.Regular → (Ty.callableOf u).Regular := fun hu =>
    (Ty.all_callableOf ClassSet.canonical_nil).2 hu
  have failing := bounds_comm (f := some f) (g := some g) (x := none) (y := some (.callableOf g))
    (by rintro _ ⟨⟩; exact hf) (by rintro _ ⟨⟩; exact hg) (by simp)
    (by rintro _ ⟨⟩; exact inside hg)
  have yielding := bounds_comm (f := some h) (g := some k) (x := some (.callableOf h))
    (y := some (.callableOf k)) (by rintro _ ⟨⟩; exact hh) (by rintro _ ⟨⟩; exact hk)
    (by rintro _ ⟨⟩; exact inside hh) (by rintro _ ⟨⟩; exact inside hk)
  exact ⟨failing.1, failing.2.2.2, by decide +kernel, yielding.1, by decide +kernel, yielding.2.2.2⟩

end SignatureLattice
