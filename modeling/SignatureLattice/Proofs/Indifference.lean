/-
Module: SignatureLattice.Proofs.Indifference
Purpose: Which classes signatures construct, and what they assume of captured variables, has no
  influence on the algebra. Two runs of an operation on operands that differ in nothing else go the
  same way: they break the same rule, or their results differ in nothing else either. So operands
  that are equal and nowhere loose can stand for one another.
Main exports: Ty.Twin, Signature.Twin, Ty.twin_iff, Signature.twin_iff, bounds_indifferent,
  Signature.combine_congr, Ty.combine_congr
-/
import SignatureLattice.Proofs.Exact

namespace SignatureLattice

open Outcome

/-!
### Twins
-/

mutual

/-- Two types are twins when they are identical but for the constructed classes and the captured
    variables of the signatures nested in them. -/
inductive Ty.Twin : Ty → Ty → Prop
  | top : Ty.Twin .top .top
  | unknown : Ty.Twin .unknown .unknown
  | union (p : Primitives) (c : ClassSet) {f g : Callable} (callable : Callable.Twin f g) :
      Ty.Twin (.union p c f) (.union p c g)

/-- Callable parts are twins when both are absent, or both are there and twins. -/
inductive Callable.Twin : Callable → Callable → Prop
  | absent : Callable.Twin none none
  | present {f g : Signature} (twin : Signature.Twin f g) : Callable.Twin (some f) (some g)

/-- Two signatures are twins when they are identical but for their constructed classes and their
    captured variables, and those of the signatures nested in them. Of two twins both are loose or
    neither is. -/
inductive Signature.Twin : Signature → Signature → Prop
  | top (loose : Bool) : Signature.Twin (.top loose) (.top loose)
  | shaped {s t : Shape} (required : Slot.TwinAll s.required t.required)
      (optional : Slot.TwinAll s.optional t.optional) (rest : Slot.Twin s.rest t.rest)
      (result : Slot.Twin s.result t.result) (loose : s.loose = t.loose) :
      Signature.Twin (.shaped s) (.shaped t)

/-- Slot lists are twins when they are as long and twins place by place. -/
inductive Slot.TwinAll : List Slot → List Slot → Prop
  | nil : Slot.TwinAll [] []
  | cons {x y : Slot} {xs ys : List Slot} (head : Slot.Twin x y) (tail : Slot.TwinAll xs ys) :
      Slot.TwinAll (x :: xs) (y :: ys)

/-- Slots are twins when both are empty, or both hold a type and these are twins. -/
inductive Slot.Twin : Slot → Slot → Prop
  | absent : Slot.Twin none none
  | present {a b : Ty} (twin : Ty.Twin a b) : Slot.Twin (some a) (some b)

end

/-!
### Twins are what forgetting cannot tell apart
-/

mutual

private theorem Ty.Twin.forget_eq {a b : Ty} : a.Twin b → a.forget true = b.forget true
  | .top => rfl
  | .unknown => rfl
  | .union p c callable => by
      rw [Ty.forget_union, Ty.forget_union, ← Callable.forget_eq, ← Callable.forget_eq,
        Callable.Twin.forget_eq callable]

private theorem Callable.Twin.forget_eq {f g : Callable} :
    Callable.Twin f g → Callable.forget true f = Callable.forget true g
  | .absent => rfl
  | .present twin => congrArg some (Signature.Twin.forget_eq twin)

private theorem Signature.Twin.forget_eq {f g : Signature} :
    f.Twin g → f.forget true = g.forget true
  | .top loose => rfl
  | .shaped required optional rest result loose => by
      rw [Signature.forget_shaped, Signature.forget_shaped, Shape.forget_eq, Shape.forget_eq,
        Slot.TwinAll.forget_eq required, Slot.TwinAll.forget_eq optional,
        Slot.Twin.forget_eq rest, Slot.Twin.forget_eq result, loose]

private theorem Slot.TwinAll.forget_eq {l m : List Slot} :
    Slot.TwinAll l m → l.map (Slot.forget true) = m.map (Slot.forget true)
  | .nil => rfl
  | .cons head tail => by
      rw [List.map_cons, List.map_cons, Slot.Twin.forget_eq head, Slot.TwinAll.forget_eq tail]

private theorem Slot.Twin.forget_eq {x y : Slot} :
    Slot.Twin x y → Slot.forget true x = Slot.forget true y
  | .absent => rfl
  | .present twin => congrArg some (Ty.Twin.forget_eq twin)

end

private theorem Slot.twin_of_forget {x y : Slot}
    (ih : ∀ a, x = some a → ∀ b, a.forget true = b.forget true → a.Twin b)
    (h : Slot.forget true x = Slot.forget true y) : Slot.Twin x y := by
  cases x with
  | none =>
      cases y with
      | none => exact .absent
      | some b => simp at h
  | some a =>
      cases y with
      | none => simp at h
      | some b => exact .present (ih a rfl b (Option.some.inj h))

private theorem Slot.twinAll_of_forget {l m : List Slot}
    (ih : ∀ a, some a ∈ l → ∀ b, a.forget true = b.forget true → a.Twin b)
    (h : l.map (Slot.forget true) = m.map (Slot.forget true)) : Slot.TwinAll l m := by
  induction l generalizing m with
  | nil =>
      obtain rfl := List.map_eq_nil_iff.1 h.symm
      exact .nil
  | cons x xs tail =>
      cases m with
      | nil => simp at h
      | cons y ys =>
          obtain ⟨first, others⟩ := List.cons.inj h
          apply Slot.TwinAll.cons
          · exact Slot.twin_of_forget (fun a ha => ih a (ha ▸ List.mem_cons_self ..)) first
          · exact tail (fun a ha => ih a (List.mem_cons_of_mem x ha)) others

private theorem Signature.twin_of_forget {f g : Signature}
    (ih : ∀ a, some a ∈ f.slots → ∀ b, a.forget true = b.forget true → a.Twin b)
    (h : f.forget true = g.forget true) : f.Twin g := by
  match f, g with
  | .top loose, .top other =>
      obtain rfl : loose = other := by simpa using h
      exact .top loose
  | .top _, .shaped _ => simp at h
  | .shaped _, .top _ => simp at h
  | .shaped s, .shaped t =>
      have left : s.forget true = t.forget true := Signature.shaped.inj h
      have formals : ∀ a, some a ∈ s.required ++ s.optional → some a ∈ s.slots := fun a ha =>
        Shape.mem_slots.2 (.inl ha)
      apply Signature.Twin.shaped
      · apply Slot.twinAll_of_forget fun a ha => ih a (formals a (List.mem_append_left _ ha))
        simpa using congrArg Shape.required left
      · apply Slot.twinAll_of_forget fun a ha => ih a (formals a (List.mem_append_right _ ha))
        simpa using congrArg Shape.optional left
      · apply Slot.twin_of_forget fun a ha => ih a (ha ▸ s.rest_mem_slots)
        simpa using congrArg Shape.rest left
      · apply Slot.twin_of_forget fun a ha => ih a (ha ▸ s.result_mem_slots)
        simpa using congrArg Shape.result left
      · simpa using congrArg Shape.loose left

/-- Types are twins when the same is left of them. -/
theorem Ty.twin_iff {a b : Ty} : a.Twin b ↔ a.forget true = b.forget true := by
  refine ⟨Ty.Twin.forget_eq, fun h => ?_⟩
  induction a using Ty.nested_induction generalizing b with
  | top =>
      cases b with
      | top => exact .top
      | unknown => simp at h
      | union q d g => simp at h
  | unknown =>
      cases b with
      | top => simp at h
      | unknown => exact .unknown
      | union q d g => simp at h
  | union p c callable ih =>
      cases b with
      | top => simp at h
      | unknown => simp at h
      | union q d other =>
          rw [Ty.forget_union, Ty.forget_union] at h
          obtain ⟨rfl, rfl, parts⟩ := Ty.union.inj h
          apply Ty.Twin.union
          cases callable with
          | none =>
              obtain rfl := Option.map_eq_none_iff.1 parts.symm
              exact .absent
          | some f =>
              cases other with
              | none => simp at parts
              | some g =>
                  apply Callable.Twin.present
                  exact Signature.twin_of_forget (fun a ha _ => ih f rfl a ha)
                    (Option.some.inj parts)

/-- Signatures are twins when the same is left of them. -/
theorem Signature.twin_iff {f g : Signature} : f.Twin g ↔ f.forget true = g.forget true :=
  ⟨Signature.Twin.forget_eq, Signature.twin_of_forget fun _ _ _ => Ty.twin_iff.2⟩

theorem Slot.twin_iff {x y : Slot} : Slot.Twin x y ↔ Slot.forget true x = Slot.forget true y :=
  ⟨Slot.Twin.forget_eq, Slot.twin_of_forget fun _ _ _ => Ty.twin_iff.2⟩

theorem Callable.twin_iff {f g : Callable} :
    Callable.Twin f g ↔ Callable.forget true f = Callable.forget true g := by
  refine ⟨Callable.Twin.forget_eq, fun h => ?_⟩
  cases f with
  | none =>
      cases g with
      | none => exact .absent
      | some g => simp at h
  | some f =>
      cases g with
      | none => simp at h
      | some g => exact .present (Signature.twin_iff.2 (Option.some.inj h))

/-!
### Two runs
-/

/-- Two computations go the same way in the view of their results if their outcomes look the same in
    that view. -/
private theorem related_of_view {α β : Type} {view : α → β} {r : α → α → Prop}
    (related : ∀ {a b}, view a = view b → r a b) {x y : Except Violation α}
    (h : view <$> x = view <$> y) : Related Eq r x y := by
  cases x with
  | error v =>
      cases y with
      | error w => exact Except.error.inj h
      | ok b => simp [Functor.map, Except.map] at h
  | ok a =>
      cases y with
      | error w => simp [Functor.map, Except.map] at h
      | ok b => exact related (Except.ok.inj h)

section

variable {f f' g g' : Callable} {x x' y y' : Slot}

private theorem Callable.combine_twin (bound : Bound) (hf : Callable.Twin f f')
    (hg : Callable.Twin g g') :
    Related Eq Callable.Twin (Callable.combine bound f g) (Callable.combine bound f' g') := by
  have left := Callable.twin_iff.1 hf
  have right := Callable.twin_iff.1 hg
  apply related_of_view Callable.twin_iff.2
  rw [← Callable.combine_forget, ← Callable.combine_forget, left, right]

private theorem Signature.specialize_twin {h h' : Signature} (hh : h.Twin h')
    (hg : Callable.Twin g g') :
    Related Eq Callable.Twin (h.specialize g) (h'.specialize g') := by
  have narrowed := Signature.twin_iff.1 hh
  have observed := Callable.twin_iff.1 hg
  apply related_of_view Callable.twin_iff.2
  rw [← Signature.specialize_forget, ← Signature.specialize_forget, narrowed, observed]

private theorem Slot.combine_twin (bound : Bound) (hx : Slot.Twin x x') (hy : Slot.Twin y y') :
    Related Eq Ty.Twin (Slot.combine bound x y) (Slot.combine bound x' y') := by
  have left := Slot.twin_iff.1 hx
  have right := Slot.twin_iff.1 hy
  apply related_of_view Ty.twin_iff.2
  rw [← Slot.combine_forget, ← Slot.combine_forget, left, right]

/-- Constructed classes and captured variables do not flow into the algebra: on operands that differ
    in nothing else, precise or loose, complete or malformed, present or absent, the two runs of an
    operation report the same error or yield results that differ in nothing else. -/
theorem bounds_indifferent (hf : Callable.Twin f f') (hg : Callable.Twin g g')
    (hx : Slot.Twin x x') (hy : Slot.Twin y y') :
    Related Eq Callable.Twin (Callable.join f g) (Callable.join f' g') ∧
      Related Eq Callable.Twin (Callable.meet f g) (Callable.meet f' g') ∧
      (∀ h ∈ f, ∀ h' ∈ f', Related Eq Callable.Twin (h.specialize g) (h'.specialize g')) ∧
      Related Eq Ty.Twin (Slot.join x y) (Slot.join x' y') ∧
      Related Eq Ty.Twin (Slot.meet x y) (Slot.meet x' y') := by
  have narrow : ∀ h ∈ f, ∀ h' ∈ f',
      Related Eq Callable.Twin (h.specialize g) (h'.specialize g') := by
    rintro h rfl h' rfl
    cases hf with
    | present twin => exact Signature.specialize_twin twin hg
  exact ⟨Callable.combine_twin .join hf hg, Callable.combine_twin .meet hf hg, narrow,
    Slot.combine_twin .join hx hy, Slot.combine_twin .meet hx hy⟩

end

/-- The theorem where what differs stands in a formal, in a result, in a loose operand itself and in
    the callable part of a type: at incomplete operands, whose bounds fail, and at complete ones,
    whose bounds are there. -/
theorem bounds_indifferent_incomplete :
    let foo : NamedClass := ⟨"Foo", 0⟩
    let built : Signature := .shaped { result := some .unknown, owner := some foo }
    let closed : Signature := .shaped
      { result := some .unknown, captures := [("count", some (.instanceOf foo))] }
    let taking (g : Signature) : Signature := .shaped { required := [some (.callableOf g), none] }
    let passing (g : Signature) : Signature := .shaped
      { required := [some (.callableOf g)], result := some (.callableOf g) }
    let loosely (owner : Option NamedClass) : Signature := .shaped
      { optional := [some .top], result := some .top, owner, loose := true }
    Related Eq Callable.Twin (Callable.meet (some (taking built)) (some (loosely none)))
        (Callable.meet (some (taking closed)) (some (loosely (some foo)))) ∧
      Related Eq Callable.Twin ((taking built).specialize (some (loosely none)))
        ((taking closed).specialize (some (loosely (some foo)))) ∧
      Related Eq Ty.Twin (Slot.join (some (.callableOf built)) none)
        (Slot.join (some (.callableOf closed)) none) ∧
      (Callable.join (some (passing built)) (some (loosely none))).isOk = true ∧
      Related Eq Callable.Twin (Callable.join (some (passing built)) (some (loosely none)))
        (Callable.join (some (passing closed)) (some (loosely (some foo)))) ∧
      (Slot.meet (some (.callableOf built)) (some (.callableOf (passing built)))).isOk = true ∧
      Related Eq Ty.Twin (Slot.meet (some (.callableOf built)) (some (.callableOf (passing built))))
        (Slot.meet (some (.callableOf closed)) (some (.callableOf (passing closed)))) := by
  intro foo built closed taking passing loosely
  have inner : Slot.Twin (some (.callableOf built)) (some (.callableOf closed)) :=
    .present (Ty.twin_iff.2 rfl)
  have outer : Slot.Twin (some (.callableOf (passing built)))
      (some (.callableOf (passing closed))) := .present (Ty.twin_iff.2 rfl)
  have left : Callable.Twin (some (taking built)) (some (taking closed)) := Callable.twin_iff.2 rfl
  have whole : Callable.Twin (some (passing built)) (some (passing closed)) :=
    Callable.twin_iff.2 rfl
  have right : Callable.Twin (some (loosely none)) (some (loosely (some foo))) :=
    Callable.twin_iff.2 rfl
  have failing := bounds_indifferent left right inner .absent
  have yielding := bounds_indifferent whole right inner outer
  exact ⟨failing.2.1, failing.2.2.1 _ rfl _ rfl, failing.2.2.2.1, by decide +kernel, yielding.1,
    by decide +kernel,
    yielding.2.2.2.2⟩

/-!
### Equal operands

Where nothing is loose, equal trees are twins. So equal operands can stand for one another.
-/

private theorem Signature.forget_precise_of {f : Signature}
    (ih : ∀ a, some a ∈ f.slots → a.forget true = a.forget false) (precise : f.isLoose = false) :
    f.forget true = f.forget false := by
  cases f with
  | top loose =>
      obtain rfl : loose = false := precise
      rfl
  | shaped s =>
      have precise : s.loose = false := precise
      have slot : ∀ x ∈ s.slots, Slot.forget true x = Slot.forget false x := by
        intro x hx
        cases x with
        | none => rfl
        | some a => exact congrArg some (ih a hx)
      have formals : ∀ x ∈ s.required ++ s.optional, x ∈ s.slots := fun _ hx =>
        Shape.mem_slots.2 (.inl hx)
      have required := List.map_congr_left fun x hx =>
        slot x (formals x (List.mem_append_left _ hx))
      have optional := List.map_congr_left fun x hx =>
        slot x (formals x (List.mem_append_right _ hx))
      rw [Signature.forget_shaped, Signature.forget_shaped, Shape.forget_eq, Shape.forget_eq,
        required, optional, slot s.rest s.rest_mem_slots, slot s.result s.result_mem_slots, precise]
      rfl

/-- In a type that is precise at every depth there is no looseness to keep. -/
theorem Ty.All.forget_precise {t : Ty} (h : t.DeeplyPrecise) : t.forget true = t.forget false := by
  induction t using Ty.nested_induction with
  | top => rfl
  | unknown => rfl
  | union p c callable ih =>
      cases callable with
      | none => rfl
      | some f =>
          have inner : f.DeeplyPrecise := (Ty.all_union.1 h).2 f rfl
          have left := Signature.forget_precise_of (fun a ha => ih f rfl a ha (inner.slot ha))
            inner.own
          rw [Ty.forget_union, Ty.forget_union, Option.map_some, Option.map_some, left]

theorem Signature.All.forget_precise {f : Signature} (h : f.DeeplyPrecise) :
    f.forget true = f.forget false :=
  Signature.forget_precise_of (fun _ ha => (h.slot ha).forget_precise) h.own

theorem Signature.twin_iff_same {f g : Signature} (hf : f.DeeplyPrecise) (hg : g.DeeplyPrecise) :
    f.Twin g ↔ f.same g = true := by
  rw [Signature.twin_iff, Signature.same_iff, hf.forget_precise, hg.forget_precise]

theorem Ty.twin_iff_same {a b : Ty} (ha : a.DeeplyPrecise) (hb : b.DeeplyPrecise) :
    a.Twin b ↔ a.same b = true := by
  rw [Ty.twin_iff, Ty.same_iff, ha.forget_precise, hb.forget_precise]

/-- Equal signatures of which none is loose at any depth have equal bounds, or none for the same
    reason. -/
theorem Signature.combine_congr (bound : Bound) {f f' g g' : Signature} (hf : f.DeeplyPrecise)
    (hf' : f'.DeeplyPrecise) (hg : g.DeeplyPrecise) (hg' : g'.DeeplyPrecise)
    (left : f.same f' = true) (right : g.same g' = true) :
    Related Eq (fun u v => u.same v = true) (Signature.combine bound f g)
      (Signature.combine bound f' g') := by
  have left := Signature.twin_iff.1 ((Signature.twin_iff_same hf hf').2 left)
  have right := Signature.twin_iff.1 ((Signature.twin_iff_same hg hg').2 right)
  apply related_of_view Signature.same_of_forget
  rw [← Signature.combine_forget, ← Signature.combine_forget, left, right]

/-- Equal types in which nothing is loose have equal bounds, or none for the same reason. -/
theorem Ty.combine_congr (bound : Bound) {a a' b b' : Ty} (ha : a.DeeplyPrecise)
    (ha' : a'.DeeplyPrecise) (hb : b.DeeplyPrecise) (hb' : b'.DeeplyPrecise)
    (left : a.same a' = true) (right : b.same b' = true) :
    Related Eq (fun u v => u.same v = true) (Ty.combine bound a b) (Ty.combine bound a' b') := by
  have left := Ty.twin_iff.1 ((Ty.twin_iff_same ha ha').2 left)
  have right := Ty.twin_iff.1 ((Ty.twin_iff_same hb hb').2 right)
  have same : ∀ {u v : Ty}, u.forget true = v.forget true → u.same v = true := by
    intro u v h
    rw [← Ty.same_forget true true, h]
    exact (Ty.same_iff _ _).2 rfl
  apply related_of_view same
  rw [← Ty.combine_forget, ← Ty.combine_forget, left, right]

end SignatureLattice
