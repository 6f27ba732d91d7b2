/-
Module: SignatureLattice.Proofs.Irrelevance
Purpose: Bounds do not look at constructed classes and captured variables. What is left of a bound
  when both are forgotten is the bound of what is left of the operands, and it is missing with the
  same error. Nothing is asked of the operands: they may be malformed or loose at any depth.
Main exports: Ty.combine_forget, Signature.combine_forget, Callable.combine_forget,
  Slot.combine_forget, Signature.specialize_forget
-/
import SignatureLattice.Proofs.Erasure
import SignatureLattice.Proofs.Merging

namespace SignatureLattice

open Outcome

/-- The first computation yields what is left of the result of the second, and fails as it does. -/
private abbrev Leaves {α : Type} (forget : α → α) (x y : Except Violation α) : Prop :=
  Related Eq (fun a b => a = forget b) x y

private theorem leaves_iff {α : Type} {forget : α → α} {x y : Except Violation α} :
    Leaves forget x y ↔ x = forget <$> y := by
  cases x with
  | error v => cases y <;> simp [Related, Functor.map, Except.map]
  | ok a => cases y <;> simp [Related, Functor.map, Except.map]

/-!
### Slots
-/

/-- The bounds of two types do not look at what is forgotten. -/
private def Overlooks (a b : Ty) : Prop :=
  ∀ bound : Bound,
    Leaves (Ty.forget true) (Ty.combine bound (a.forget true) (b.forget true))
      (Ty.combine bound a b)

private theorem Slot.either_forget_of {bound : Bound} {x y : Slot}
    (ih : ∀ a, x = some a → ∀ b, Overlooks a b) :
    Leaves (Slot.forget true)
      (Slot.either bound (Slot.forget true x) (Slot.forget true y)) (Slot.either bound x y) := by
  cases x with
  | none => cases y <;> simp [Slot.either]
  | some a =>
      cases y with
      | none => simp [Slot.either]
      | some b =>
          simp only [Slot.either, Slot.forget_some]
          exact (ih a rfl b bound).map fun u v leaves => congrArg some leaves

private theorem Slot.both_forget_of {bound : Bound} {x y : Slot}
    (ih : ∀ a, x = some a → ∀ b, Overlooks a b) :
    Leaves (Slot.forget true)
      (Slot.both bound (Slot.forget true x) (Slot.forget true y)) (Slot.both bound x y) := by
  cases x with
  | none => cases y <;> simp [Slot.both]
  | some a =>
      cases y with
      | none => simp [Slot.both]
      | some b =>
          simp only [Slot.both, Slot.forget_some]
          exact (ih a rfl b bound).map fun u v leaves => congrArg some leaves

private theorem Slot.require_forget (violation : Violation) (x : Slot) :
    Leaves (Ty.forget true) (Slot.require violation (Slot.forget true x))
      (Slot.require violation x) := by
  cases x with
  | none => exact Eq.refl violation
  | some a => exact Eq.refl (a.forget true)

/-!
### Shapes
-/

theorem MergeRule.of_forget (bound : Bound) (s t : Shape) :
    MergeRule.of bound (s.forget true) (t.forget true) = MergeRule.of bound s t := by
  simp [MergeRule.of]

theorem MergeRule.assemble_forget (rule : MergeRule) (s t : Shape) (formals : List Ty)
    (rest : Slot) (result : Ty) :
    rule.assemble (s.forget true) (t.forget true) (formals.map (Ty.forget true))
        (Slot.forget true rest) (result.forget true) =
      (rule.assemble s t formals rest result).forget true := by
  have slots : Slot.forget true ∘ some = some ∘ Ty.forget true := rfl
  simp [MergeRule.assemble, Shape.forget_eq, ← List.map_take, ← List.map_drop, slots]

theorem Shape.dominant?_forget (bound : Bound) (s t : Shape) :
    Shape.dominant? bound (s.forget true) (t.forget true) =
      (Shape.dominant? bound s t).map (Shape.forget true) := by
  cases bound with
  | join =>
      simp only [Shape.dominant?, Shape.isBottom_forget, Shape.same_forget]
      split
      · rfl
      · split <;> rfl
  | meet =>
      simp only [Shape.dominant?, Shape.same_forget]
      split <;> rfl

private theorem Shape.merge_forget_of {bound : Bound} {s t : Shape}
    (ih : ∀ a, some a ∈ s.slots → ∀ b, Overlooks a b) :
    Leaves (Shape.forget true) (Shape.merge bound (s.forget true) (t.forget true))
      (Shape.merge bound s t) := by
  have parallel : ∀ {x : Slot} (y : Slot), x ∈ s.slots → Slot.Parallel Eq
      (fun u v => u = Slot.forget true v) (Slot.forget true x) (Slot.forget true y) x y := by
    intro x y hx
    have overlooks : ∀ a, x = some a → ∀ b, Overlooks a b := fun a ha => ih a (ha ▸ hx)
    exact ⟨fun _ => Slot.either_forget_of overlooks, fun _ => Slot.both_forget_of overlooks⟩
  have valid : Related Eq (fun _ _ : Unit => True)
      (Shape.validateForMerge (s.forget true) (t.forget true)) (Shape.validateForMerge s t) := by
    simp only [Shape.validateForMerge, Shape.forget_span, Shape.validate_forget]
    split
    · exact trivial
    · cases t.validate <;> cases s.validate <;> simp [bind, Except.bind]
  refine Shape.merge_related (p := fun u v => u = Slot.forget true v)
    (r := fun a b => a = b.forget true) (MergeRule.of_forget bound s t) valid
    (by rw [Shape.forget_span, Shape.forget_span]) (fun i => ?_) ?_ ?_ rfl ?_ ?_
  · rw [Shape.forget_formalAt?, Shape.forget_formalAt?]
    exact parallel _ (s.formalAt?_mem_slots i)
  · rw [Shape.forget_rest, Shape.forget_rest]
    exact parallel _ s.rest_mem_slots
  · rw [Shape.forget_result, Shape.forget_result]
    exact parallel _ s.result_mem_slots
  · rintro violation _ x rfl
    exact Slot.require_forget violation x
  · rintro rule l m _ x _ a hformals rfl rfl
    obtain rfl : l = m.map (Ty.forget true) := by
      rwa [← List.forall₂_eq_eq_eq, List.forall₂_map_right_iff]
    rw [MergeRule.assemble_forget, Shape.normalized_forget]

/-!
### Types and signatures
-/

private theorem Signature.combine_forget_of {bound : Bound} {f g : Signature}
    (ih : ∀ a, some a ∈ f.slots → ∀ b, Overlooks a b) :
    Leaves (Signature.forget true) (Signature.combine bound (f.forget true) (g.forget true))
      (Signature.combine bound f g) := by
  match f, g with
  | .top _, .top _ => cases bound <;> simp [Signature.combine, Bound.pick]
  | .top _, .shaped t =>
      cases bound with
      | join =>
          have bottom := Signature.isBottom_forget true (.shaped t)
          rw [Signature.forget_shaped] at bottom
          simp [Signature.combine, Bound.pick, bottom, Signature.isTop]
      | meet => simp [Signature.combine, Bound.pick]
  | .shaped s, .top _ =>
      cases bound with
      | join =>
          have bottom := Signature.isBottom_forget true (.shaped s)
          rw [Signature.forget_shaped] at bottom
          simp [Signature.combine, Bound.pick, bottom]
      | meet => simp [Signature.combine, Bound.pick]
  | .shaped s, .shaped t =>
      simp only [Signature.forget_shaped, Signature.combine, Shape.dominant?_forget]
      cases Shape.dominant? bound s t with
      | some u => exact Eq.refl (Signature.shaped (u.forget true))
      | none =>
          exact (Shape.merge_forget_of ih).map fun u v leaves => congrArg Signature.shaped leaves

private theorem Callable.combine_forget_of {bound : Bound} {f g : Callable}
    (signatures : ∀ f' g', f = some f' → g = some g' → Leaves (Signature.forget true)
      (Signature.combine bound (f'.forget true) (g'.forget true))
      (Signature.combine bound f' g')) :
    Leaves (Callable.forget true)
      (Callable.combine bound (Callable.forget true f) (Callable.forget true g))
      (Callable.combine bound f g) := by
  cases f with
  | none => cases g <;> cases bound <;> simp [Callable.combine, Bound.pick]
  | some f =>
      cases g with
      | none => cases bound <;> simp [Callable.combine, Bound.pick]
      | some g =>
          simp only [Callable.combine, Callable.forget_eq, Option.map_some]
          exact (signatures f g rfl rfl).map fun u v leaves => congrArg some leaves

private theorem Ty.overlooks (a b : Ty) : Overlooks a b := by
  induction a, b using Ty.pair_induction with
  | extreme a b extreme =>
      intro bound
      cases a <;> cases b <;> cases bound <;>
        simp_all [Ty.combine, Bound.pick, Ty.isExtreme, Ty.isTop, Ty.isUnknown]
  | union p c f q d g ih =>
      intro bound
      have callable : Leaves (Callable.forget true)
          (Callable.combine bound (Callable.forget true f) (Callable.forget true g))
          (Callable.combine bound f g) :=
        Callable.combine_forget_of fun f' _ hf _ => Signature.combine_forget_of (ih f' hf)
      rw [Callable.forget_eq, Callable.forget_eq] at callable
      rw [Ty.forget_union, Ty.forget_union, Ty.combine_union, Ty.combine_union]
      apply callable.map
      rintro _ x rfl
      rw [Ty.forget_union, Callable.forget_eq]

/-- Forgetting constructed classes and captured variables commutes with the bounds of types. -/
theorem Ty.combine_forget (bound : Bound) (a b : Ty) :
    Ty.combine bound (a.forget true) (b.forget true) =
      Ty.forget true <$> Ty.combine bound a b :=
  leaves_iff.1 (Ty.overlooks a b bound)

/-- Forgetting constructed classes and captured variables commutes with the bounds of
    signatures. -/
theorem Signature.combine_forget (bound : Bound) (f g : Signature) :
    Signature.combine bound (f.forget true) (g.forget true) =
      Signature.forget true <$> Signature.combine bound f g :=
  leaves_iff.1 (Signature.combine_forget_of fun a _ b => Ty.overlooks a b)

/-!
### The public operations
-/

/-- Forgetting constructed classes and captured variables commutes with the bounds of signatures
    that may be absent. -/
theorem Callable.combine_forget (bound : Bound) (f g : Callable) :
    Callable.combine bound (Callable.forget true f) (Callable.forget true g) =
      Callable.forget true <$> Callable.combine bound f g :=
  leaves_iff.1 (Callable.combine_forget_of fun f' g' _ _ =>
    leaves_iff.2 (Signature.combine_forget bound f' g'))

/-- Forgetting constructed classes and captured variables commutes with the bounds of types that may
    be absent. -/
theorem Slot.combine_forget (bound : Bound) (x y : Slot) :
    Slot.combine bound (Slot.forget true x) (Slot.forget true y) =
      Ty.forget true <$> Slot.combine bound x y := by
  apply leaves_iff.1
  apply (Slot.both_forget_of fun a _ b => Ty.overlooks a b).bind
  rintro _ z rfl
  exact Slot.require_forget _ z

/-- Forgetting constructed classes and captured variables commutes with narrowing. -/
theorem Signature.specialize_forget (f : Signature) (observed : Callable) :
    (f.forget true).specialize (Callable.forget true observed) =
      Callable.forget true <$> f.specialize observed := by
  have loose : ∀ g : Signature, (g.forget true).isLoose = g.isLoose := by
    intro g
    cases g <;> simp [Signature.isLoose]
  cases observed with
  | none => rfl
  | some g =>
      have met := Callable.combine_forget .meet (some f) (some g)
      rw [Callable.forget_eq, Callable.forget_eq, Option.map_some, Option.map_some] at met
      rw [Callable.forget_eq, Option.map_some, Signature.specialize, Signature.specialize, loose,
        loose, Callable.meet, Callable.meet, met]
      split
      · rw [← Option.map_some, ← Callable.forget_eq]
        rfl
      · rfl

end SignatureLattice
