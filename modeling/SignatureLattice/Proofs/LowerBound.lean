/-
Module: SignatureLattice.Proofs.LowerBound
Purpose: When the meet of two signatures is a subtype of them. A meet keeps the formals of the
  longer operand, while a supertype reaches only one formal past its own, if it takes further
  arguments at all. So the meet stands in for an operand just when it is not too long for it; and
  the signatures nested in the meet, which are bounds of signatures nested in the operands, must not
  be either.
Main exports: Signature.Within, Shape.standsIn_meet_iff, meet_isSubtypeOf
-/
import SignatureLattice.Proofs.StandingIn

namespace SignatureLattice

/-!
### Signatures within others
-/

/-- A signature is within another one when it has no more formals, unless the other one takes
    further arguments, and so are the signatures nested in it at the places where the other one has
    one, too. -/
inductive Signature.Within : Signature → Signature → Prop where
  | top {f g : Signature} (extreme : f.isTop ∨ g.isTop) : Within f g
  | shaped {s t : Shape}
      (span : t.rest = none → s.span ≤ t.span)
      (formals : ∀ i f g, Slot.callable? (s.formalAt? i) = some f →
        Slot.callable? (t.formalAt? i) = some g → Within f g)
      (results : ∀ f g, Slot.callable? s.result = some f → Slot.callable? t.result = some g →
        Within f g) :
      Within (.shaped s) (.shaped t)

/-- A type is within another one when its callable part is, if both have one. -/
def Ty.Within (a b : Ty) : Prop :=
  ∀ f g, a.callable? = some f → b.callable? = some g → f.Within g

/-- A slot is within another one when the type in it is, if both hold one. -/
def Slot.Within (x y : Slot) : Prop :=
  ∀ a b, x = some a → y = some b → a.Within b

theorem Slot.within_iff {x y : Slot} :
    Slot.Within x y ↔ ∀ f g, Slot.callable? x = some f → Slot.callable? y = some g →
      f.Within g := by
  constructor
  · intro within f g hf hg
    obtain ⟨a, rfl, eqf⟩ := Option.bind_eq_some_iff.1 hf
    obtain ⟨b, rfl, eqg⟩ := Option.bind_eq_some_iff.1 hg
    exact within a b rfl rfl f g eqf eqg
  · rintro within a b rfl rfl f g eqf eqg
    exact within f g eqf eqg

theorem Signature.within_shaped_iff {s t : Shape} :
    (Signature.shaped s).Within (.shaped t) ↔
      (t.rest = none → s.span ≤ t.span) ∧
        (∀ i, Slot.Within (s.formalAt? i) (t.formalAt? i)) ∧ Slot.Within s.result t.result := by
  simp only [Slot.within_iff]
  constructor
  · intro within
    cases within with
    | top extreme => simp [Signature.isTop] at extreme
    | shaped span formals results => exact ⟨span, formals, results⟩
  · rintro ⟨span, formals, results⟩
    exact .shaped span formals results

private theorem Signature.within_refl_of {f : Signature}
    (ih : ∀ a, some a ∈ f.slots → a.Within a) : f.Within f := by
  cases f with
  | top loose => exact .top (.inl rfl)
  | shaped s =>
      have slot : ∀ {x : Slot}, x ∈ s.slots → Slot.Within x x := by
        rintro x hx a b rfl hb
        obtain rfl := Option.some.inj hb
        exact ih a hx
      exact Signature.within_shaped_iff.2 ⟨fun _ => Nat.le_refl _,
        fun i => slot (s.formalAt?_mem_slots i), slot s.result_mem_slots⟩

theorem Ty.within_refl (t : Ty) : t.Within t := by
  induction t using Ty.nested_induction with
  | top => simp [Ty.Within, Ty.callable?]
  | unknown => simp [Ty.Within, Ty.callable?]
  | union p classes callable ih =>
      intro f g hf hg
      obtain rfl := Option.some.inj (hf.symm.trans hg)
      exact Signature.within_refl_of (ih f hf)

theorem Signature.within_refl (f : Signature) : f.Within f :=
  Signature.within_refl_of fun a _ => a.within_refl

/-!
### What is left of the signatures
-/

private def WithinForgets (a : Ty) : Prop :=
  ∀ b : Ty, (a.forget true).Within (b.forget true) ↔ a.Within b

private theorem Slot.within_forget_of {x y : Slot} (ih : ∀ a, x = some a → WithinForgets a) :
    Slot.Within (Slot.forget true x) (Slot.forget true y) ↔ Slot.Within x y := by
  match x, y with
  | some a, some b => simpa [Slot.Within] using ih a rfl b
  | none, _ => simp [Slot.Within]
  | some _, none => simp [Slot.Within]

private theorem Signature.within_forget_of {f : Signature}
    (ih : ∀ a, some a ∈ f.slots → WithinForgets a) (g : Signature) :
    (f.forget true).Within (g.forget true) ↔ f.Within g := by
  match f, g with
  | .top _, _ => exact iff_of_true (.top (.inl rfl)) (.top (.inl rfl))
  | .shaped _, .top _ => exact iff_of_true (.top (.inr rfl)) (.top (.inr rfl))
  | .shaped s, .shaped t =>
      have slots : ∀ {x : Slot}, x ∈ s.slots → ∀ a, x = some a → WithinForgets a :=
        fun hx a ha => ih a (ha ▸ hx)
      have formals : ∀ i, Slot.Within ((s.forget true).formalAt? i) ((t.forget true).formalAt? i) ↔
          Slot.Within (s.formalAt? i) (t.formalAt? i) := by
        intro i
        simp only [Shape.forget_formalAt?]
        exact Slot.within_forget_of (slots (s.formalAt?_mem_slots i))
      have absent : (t.forget true).rest = none ↔ t.rest = none := by
        cases rest : t.rest <;> simp [rest]
      simp only [Signature.forget_shaped, Signature.within_shaped_iff, absent, Shape.forget_span,
        formals, Shape.forget_result, Slot.within_forget_of (slots s.result_mem_slots)]

theorem Ty.within_forget (a : Ty) (b : Ty) :
    (a.forget true).Within (b.forget true) ↔ a.Within b := by
  suffices all : ∀ a, WithinForgets a from all a b
  intro a
  induction a using Ty.nested_induction with
  | top => intro b; simp [Ty.Within, Ty.callable?]
  | unknown => intro b; simp [Ty.Within, Ty.callable?]
  | union p classes f ih =>
      intro b
      have signatures : ∀ f' g, f = some f' →
          ((f'.forget true).Within (g.forget true) ↔ f'.Within g) :=
        fun f' g eq => Signature.within_forget_of (ih f' eq) g
      simp only [Ty.Within, Ty.callable?_forget, Option.map_eq_some_iff]
      constructor
      · intro within f' g hf hg
        exact (signatures f' g hf).1 (within _ _ ⟨f', hf, rfl⟩ ⟨g, hg, rfl⟩)
      · rintro within _ _ ⟨f', hf, rfl⟩ ⟨g, hg, rfl⟩
        exact (signatures f' g hf).2 (within f' g hf hg)

theorem Slot.within_forget (x y : Slot) :
    Slot.Within (Slot.forget true x) (Slot.forget true y) ↔ Slot.Within x y :=
  Slot.within_forget_of fun a _ => a.within_forget

/-!
### Shapes
-/

/-- The dual bound of a bound with a type and this type is the type again, just when the bound is
    within the type. -/
private def RecoversAt (a : Ty) : Prop :=
  ∀ (bound : Bound) (b : Ty), a.Exact → b.Exact →
    (Ty.bound bound.dual (Ty.bound bound a b) a = a ↔ (Ty.bound bound a b).Within a)

namespace Shape

variable {bound : Bound} {s t u : Shape}

private theorem recovers_formal (ih : ∀ a, some a ∈ s.slots → RecoversAt a)
    (hs : (Signature.shaped s).Exact) (ht : (Signature.shaped t).Exact)
    (h : Pointwise bound s t u) {i : Nat} {a c : Ty} (ha : s.formalAt? i = some a)
    (hc : u.formalAt? i = some c) : Ty.bound bound c a = a ↔ c.Within a := by
  have exacta := exact_formalAt? hs i a ha
  cases hb : t.formalAt? i with
  | none =>
      obtain rfl := h.formalAt?_left ha hb hc
      exact iff_of_true (Ty.bound_self bound exacta) c.within_refl
  | some b =>
      obtain rfl := Option.some.inj ((h.formalAt?_some ha hb).symm.trans hc)
      have recovers := ih a (ha ▸ s.formalAt?_mem_slots i) bound.dual b exacta
        (exact_formalAt? ht i b hb)
      rwa [Bound.dual_dual] at recovers

private theorem recovers_result (ih : ∀ a, some a ∈ s.slots → RecoversAt a)
    (hs : (Signature.shaped s).Exact) (ht : (Signature.shaped t).Exact)
    (h : Pointwise bound s t u) {a c : Ty} (ha : s.result = some a) (hc : u.result = some c) :
    Ty.bound bound.dual c a = a ↔ c.Within a := by
  obtain ⟨b, hb⟩ := exists_result ht.own.1
  have result := h.result
  rw [ha, hb, hc, Option.map₂_some_some, Option.some.injEq] at result
  rw [result]
  exact ih a (ha ▸ s.result_mem_slots) bound b (exact_result hs a ha) (exact_result ht b hb)

private theorem within_of_pointwise (ih : ∀ a, some a ∈ s.slots → RecoversAt a)
    (hs : (Signature.shaped s).Exact) (ht : (Signature.shaped t).Exact)
    (hu : (Signature.shaped u).Exact) (h : Pointwise bound s t u)
    (whole : Pointwise bound.dual u s s) : (Signature.shaped u).Within (.shaped s) := by
  refine Signature.within_shaped_iff.2 ⟨whole.span_le hu, fun i c a hc ha => ?_,
    fun c a hc ha => ?_⟩
  · have absorbed := whole.absorb_formal hc ha
    rw [Bound.dual_dual] at absorbed
    exact (recovers_formal ih hs ht h ha hc).1 absorbed
  · exact (recovers_result ih hs ht h ha hc).1 (whole.absorb_result hc ha)

private theorem pointwise_of_within (ih : ∀ a, some a ∈ s.slots → RecoversAt a)
    (hs : (Signature.shaped s).Exact) (ht : (Signature.shaped t).Exact)
    (hu : (Signature.shaped u).Exact) (h : Pointwise bound s t u)
    (within : (Signature.shaped u).Within (.shaped s)) : Pointwise bound.dual u s s := by
  obtain ⟨span, formals, results⟩ := Signature.within_shaped_iff.1 within
  have inner : ∀ {i a c}, s.formalAt? i = some a → u.formalAt? i = some c →
      Ty.bound bound c a = a := fun ha hc =>
    (recovers_formal ih hs ht h ha hc).2 (formals _ _ _ hc ha)
  refine ⟨?_, Nat.le_max_right _ _, fun i hi => ?_, ?_, ?_⟩
  · have required := h.required
    cases bound with
    | join =>
        simp only [Bound.dual, Bound.pick] at required ⊢
        omega
    | meet =>
        simp only [Bound.dual, Bound.pick] at required ⊢
        omega
  · rw [Bound.dual_dual]
    cases ha : s.formalAt? i with
    | none =>
        obtain ⟨past, rest⟩ := span_le_of_absent hs ha
        have shorter := span rest
        omega
    | some a =>
        cases hc : u.formalAt? i with
        | none => exact Option.merge_none_left.symm
        | some c => exact congrArg some (inner ha hc).symm
  · have rest := h.rest
    have rests : ∀ {a c}, s.rest = some a → u.rest = some c → Ty.bound bound c a = a := by
      intro a c ha hc
      obtain ⟨i, fars, -, faru⟩ := exists_past s t u
      exact inner (fars.trans ha) (faru.trans hc)
    rw [Bound.dual_dual]
    cases bound with
    | join =>
        cases ha : s.rest with
        | none =>
            rw [rest, ha]
            rfl
        | some a =>
            cases hc : u.rest with
            | none => rfl
            | some c => exact congrArg some (rests ha hc).symm
    | meet =>
        cases ha : s.rest with
        | none => exact (Option.map₂_none_right _ _).symm
        | some a =>
            cases hc : u.rest with
            | none => cases hb : t.rest <;> simp [ha, hb, hc, Bound.pick] at rest
            | some c => exact congrArg some (rests ha hc).symm
  · obtain ⟨a, ha⟩ := exists_result hs.own.1
    obtain ⟨c, hc⟩ := exists_result hu.own.1
    rw [ha, hc, Option.map₂_some_some,
      (recovers_result ih hs ht h ha hc).2 (results c a hc ha)]

end Shape

/-!
### Signatures and types
-/

private theorem Signature.recovers_of {bound : Bound} {f g : Signature}
    (ih : ∀ a, some a ∈ f.slots → RecoversAt a) (hf : f.Exact) (hg : g.Exact) :
    Signature.bound bound.dual (Signature.bound bound f g) f = f ↔
      (Signature.bound bound f g).Within f := by
  match f, g with
  | .top loose, g =>
      rw [Signature.top_of_exact hf, Signature.bound_top]
      refine iff_of_true ?_ (.top (.inr rfl))
      cases bound with
      | join => exact Signature.bound_top .meet (.top false)
      | meet => exact Signature.bound_top_right .join hg
  | .shaped s, .top loose =>
      rw [Signature.top_of_exact hg, Signature.bound_top_right bound hf]
      cases bound with
      | join => exact iff_of_true (Signature.bound_top .meet (.shaped s)) (.top (.inl rfl))
      | meet => exact iff_of_true (Signature.bound_self .join _) (Signature.within_refl _)
  | .shaped s, .shaped t =>
      obtain ⟨u, eq, h⟩ := Shape.exists_pointwise bound hf hg
      have hu : (Signature.shaped u).Exact := eq ▸ Signature.exact_bound bound hf hg
      rw [eq, Shape.bound_eq_iff hu hf hf]
      exact ⟨Shape.within_of_pointwise ih hf hg hu h, Shape.pointwise_of_within ih hf hg hu h⟩

private theorem Callable.recovers_of (bound : Bound) {f g : Callable}
    (signatures : ∀ f' g', f = some f' → g = some g' →
      (Signature.bound bound.dual (Signature.bound bound f' g') f' = f' ↔
        (Signature.bound bound f' g').Within f')) :
    Callable.bound bound.dual (Callable.bound bound f g) f = f ↔
      ∀ k f', Callable.bound bound f g = some k → f = some f' → k.Within f' := by
  match f, g with
  | none, none => cases bound <;> simp [Callable.bound, Bound.pick, Bound.dual]
  | none, some g => cases bound <;> simp [Callable.bound, Bound.pick, Bound.dual]
  | some f, none =>
      cases bound with
      | join => simp [Callable.bound, Bound.pick, Signature.bound_self, Signature.within_refl]
      | meet => simp [Callable.bound, Bound.pick, Bound.dual]
  | some f, some g => simpa [Callable.bound] using signatures f g rfl rfl

/-- A bound of two types of which one is extreme is one of them, and gives both of them back. -/
private theorem Ty.recovers_of_extreme (bound : Bound) {a b : Ty} (ha : a.Exact)
    (extreme : (a.isExtreme || b.isExtreme) = true) :
    Ty.bound bound.dual (Ty.bound bound a b) a = a ↔ (Ty.bound bound a b).Within a := by
  rcases Ty.combine_of_extreme extreme bound with eq | eq
  · rw [Ty.bound_eq_of_combine eq]
    exact iff_of_true (Ty.bound_self bound.dual ha) a.within_refl
  · have outer := Ty.bound_eq_of_combine eq
    rw [outer]
    refine iff_of_true ?_ fun f g hf hg => ?_
    · cases a <;> cases b <;> cases bound <;>
        simp_all [Bound.pick, Bound.dual, Ty.isExtreme, Ty.isTop, Ty.isUnknown]
    · cases a <;> cases b <;>
        simp_all [Ty.callable?, Ty.isExtreme, Ty.isTop, Ty.isUnknown]

private theorem Ty.recoversAt (a : Ty) : RecoversAt a := by
  induction a using Ty.nested_induction with
  | top => exact fun bound b ha _ => Ty.recovers_of_extreme bound ha rfl
  | unknown => exact fun bound b ha _ => Ty.recovers_of_extreme bound ha rfl
  | union p classes f ih =>
      intro bound b ha hb
      match b with
      | .top => exact Ty.recovers_of_extreme bound ha (Bool.or_true _)
      | .unknown => exact Ty.recovers_of_extreme bound ha (Bool.or_true _)
      | .union q d g =>
          obtain ⟨canonical, hf⟩ := Ty.all_union.1 ha
          obtain ⟨canonical', hg⟩ := Ty.all_union.1 hb
          have exact := Ty.exact_bound bound ha hb
          have callables := Callable.recovers_of bound (f := f) (g := g)
            fun f' g' eqf eqg => Signature.recovers_of (ih f' eqf) (hf f' eqf) (hg g' eqg)
          rw [Ty.bound_union bound ha hb] at exact ⊢
          rw [Ty.bound_union bound.dual exact ha, Primitives.pick_dual,
            ClassSet.pick_dual bound canonical canonical', Ty.union.injEq]
          simpa [Ty.Within, Ty.callable?] using callables

/-!
### The meet as a subtype
-/

namespace Shape

/-- A shape is within the reach of another one when it has no formal past it, and the signatures
    nested in it are within those that the other one has at the positions that it reaches and in its
    result. -/
structure WithinReach (s t : Shape) : Prop where
  span : s.span ≤ t.reach
  formals : ∀ i, i < t.reach → Slot.Within (s.formalAt? i) (t.formalAt? i)
  result : Slot.Within s.result t.result

theorem withinReach_forget {s t : Shape} :
    (s.forget true).WithinReach (t.forget true) ↔ s.WithinReach t := by
  constructor
  · rintro ⟨span, formals, result⟩
    simp only [forget_span, forget_reach, forget_formalAt?, forget_result, Slot.within_forget]
      at span formals result
    exact ⟨span, formals, result⟩
  · rintro ⟨span, formals, result⟩
    refine ⟨?_, ?_, ?_⟩
    · simpa using span
    · simpa [Slot.within_forget] using formals
    · simpa [Slot.within_forget] using result

/-- The meet of two shapes stands in for the first one just when it is within its reach. -/
theorem standsIn_meet_iff {s t m : Shape} (hs : (Signature.shaped s).Exact)
    (ht : (Signature.shaped t).Exact) (hm : (Signature.shaped m).Exact)
    (h : Pointwise .meet s t m) : m.StandsIn s ↔ m.WithinReach s := by
  have position : ∀ i,
      Slot.GivesWay .meet (m.formalAt? i) (s.formalAt? i) ↔
        Slot.Within (m.formalAt? i) (s.formalAt? i) := by
    have types : ∀ i c a, m.formalAt? i = some c → s.formalAt? i = some a →
        (c.GivesWay .meet a ↔ c.Within a) := fun i c a hc ha => by
      rw [Ty.givesWay_iff (exact_formalAt? hm i c hc) (exact_formalAt? hs i a ha)]
      exact recovers_formal (fun a _ => a.recoversAt) hs ht h ha hc
    exact fun i => forall₄_congr (types i)
  have result : Slot.GivesWay .join m.result s.result ↔ Slot.Within m.result s.result := by
    have types : ∀ c a, m.result = some c → s.result = some a →
        (c.GivesWay .join a ↔ c.Within a) := fun c a hc ha => by
      rw [Ty.givesWay_iff (exact_result hm c hc) (exact_result hs a ha)]
      exact recovers_result (fun a _ => a.recoversAt) hs ht h ha hc
    exact forall₄_congr types
  constructor
  · exact fun stands => ⟨stands.span, fun i hi => (position i).1 (stands.formals i hi),
      result.1 stands.result⟩
  · refine fun within => ⟨?_, within.span, fun i hi => (position i).2 (within.formals i hi),
      result.2 within.result⟩
    rw [h.required]
    exact Nat.min_le_left _ _

end Shape

/-- Met with an exact signature, a shape is met with some shape: a top sentinel changes as little as
    the shape itself. -/
private theorem Signature.exists_meet {s : Shape} {g : Signature}
    (hs : (Signature.shaped s).Exact) (hg : g.Exact) :
    ∃ m t, Signature.bound .meet (.shaped s) g = .shaped m ∧ (Signature.shaped t).Exact ∧
      Shape.Pointwise .meet s t m := by
  have partner : ∃ t, (Signature.shaped t).Exact ∧
      Signature.bound .meet (.shaped s) g = Signature.bound .meet (.shaped s) (.shaped t) := by
    cases g with
    | top loose =>
        obtain rfl : loose = false := hg.own
        refine ⟨s, hs, ?_⟩
        rw [Signature.bound_self, Signature.bound_top_right .meet hs]
        rfl
    | shaped t => exact ⟨t, hg, rfl⟩
  obtain ⟨t, ht, eq⟩ := partner
  obtain ⟨m, met, pointwise⟩ := Shape.exists_pointwise .meet hs ht
  exact ⟨m, t, eq.trans met, ht, pointwise⟩

theorem Signature.Concrete.bound (bound : Bound) {f g : Signature} (hf : f.Concrete)
    (hg : g.Concrete) : (Signature.bound bound f g).Concrete where
  definite := hf.definite.bound bound hg.definite
  known := hf.known.of_combine hg.known
    (Signature.combine_eq_bound bound hf.definite.valid hg.definite.valid)

/-- A concrete signature that is, as far as equality can tell, the meet of two others is a subtype
    of the first just when it is within its reach, where top sentinels reach everything. -/
private theorem isSubtypeOf_iff_withinReach {f g m : Signature} (hf : f.Concrete) (hg : g.Concrete)
    (hm : m.Concrete)
    (left : m.forget true = Signature.bound .meet (f.forget true) (g.forget true)) :
    m.isSubtypeOf f = .ok true ↔ ∀ u s, m = .shaped u → f = .shaped s → u.WithinReach s := by
  cases f with
  | top loose => simp [Signature.isSubtypeOf]
  | shaped s =>
      obtain ⟨v, t, met, ht, pointwise⟩ :=
        Signature.exists_meet hf.definite.exact hg.definite.exact
      have shape : ∃ u, m = .shaped u ∧ u.forget true = v := by
        cases m with
        | top loose => exact absurd (left.trans met) (by simp)
        | shaped u => exact ⟨u, rfl, Signature.shaped.inj (left.trans met)⟩
      obtain ⟨u, rfl, rfl⟩ := shape
      rw [Signature.isSubtypeOf_iff_standsIn hm hf, ← Shape.standsIn_forget,
        Shape.standsIn_meet_iff hf.definite.exact ht hm.definite.exact pointwise,
        Shape.withinReach_forget]
      simp

/-!
### Main theorem
-/

/-- The meet of two concrete signatures is a subtype of either of them just when it is within its
    reach: only the numbers of formals matter, and those of the signatures nested at the same
    places. A top sentinel reaches everything. -/
theorem meet_isSubtypeOf {f g : Signature} (hf : f.Concrete) (hg : g.Concrete) :
    ∃ m : Signature, Callable.meet (some f) (some g) = .ok (some m) ∧
      (m.isSubtypeOf f = .ok true ↔
        ∀ u s, m = .shaped u → f = .shaped s → u.WithinReach s) ∧
      (m.isSubtypeOf g = .ok true ↔
        ∀ u t, m = .shaped u → g = .shaped t → u.WithinReach t) := by
  have left := Signature.forget_bound .meet hf.definite.valid hg.definite.valid
  have hm := hf.bound .meet hg
  refine ⟨_, Callable.combine_eq_bound .meet hf.definite.valid hg.definite.valid,
    isSubtypeOf_iff_withinReach hf hg hm left, isSubtypeOf_iff_withinReach hg hf hm ?_⟩
  rw [left, Signature.bound_comm .meet hf.definite.exact hg.definite.exact]

/-- The theorem at a variadic signature that takes functions, and one that takes functions of fewer
    arguments: their meet is within the reach of the first. -/
theorem meet_isSubtypeOf_variadic :
    let number : Ty := .ofPrimitives { number := true }
    let silent : Signature := .shaped { result := some .bottom }
    let telling : Signature := .shaped { required := [some number], result := some number }
    let f : Signature := .shaped
      { required := [some (.callableOf telling)], rest := some number, result := some .top }
    let g : Signature := .shaped
      { required := [some (.callableOf silent)], result := some number }
    ∃ m : Signature, Callable.meet (some f) (some g) = .ok (some m) ∧
      m.isSubtypeOf f = .ok true := by
  intro number silent telling f g
  let u : Shape :=
    { required := [some (.callableOf telling)], rest := some number, result := some number }
  have met : Callable.meet (some f) (some g) = .ok (some (.shaped u)) := by cbv
  have concrete : f.Concrete ∧ g.Concrete := by decide
  obtain ⟨m, hm, below, -⟩ := meet_isSubtypeOf concrete.1 concrete.2
  refine ⟨m, hm, below.2 fun v s hv hs => ?_⟩
  obtain rfl : v = u := by
    rw [met, hv] at hm
    simpa using hm.symm
  obtain rfl := Signature.shaped.inj hs
  have same : ∀ x : Slot, Slot.Within x x := fun x a b ha hb =>
    Option.some.inj (ha.symm.trans hb) ▸ a.within_refl
  exact ⟨by decide, fun i _ => same _, by simp [u, number, Slot.within_iff, Slot.callable?,
    Ty.callable?, Ty.ofPrimitives]⟩

/-- A meet that is longer than one operand, and one that takes functions of more arguments than
    those that an operand of the same length takes. -/
theorem meet_isSubtypeOf_fails :
    let number : Ty := .ofPrimitives { number := true }
    let takes (cb : Signature) : Signature := .shaped
      { required := [some (.callableOf cb)], result := some .bottom }
    let f : Signature := .shaped { result := some .bottom }
    let g : Signature := .shaped { optional := [some number], result := some .bottom }
    let h : Signature := .shaped { required := [some number], result := some .bottom }
    f.Concrete ∧ g.Concrete ∧ (takes f).Concrete ∧ (takes h).Concrete ∧
      Callable.meet (some f) (some g) = .ok (some g) ∧ g.isSubtypeOf f = .ok false ∧
      Callable.meet (some (takes f)) (some (takes h)) = .ok (some (takes h)) ∧
      (takes h).isSubtypeOf (takes f) = .ok false := by
  intro number takes f g h
  have concrete : f.Concrete ∧ g.Concrete ∧ (takes f).Concrete ∧ (takes h).Concrete := by decide
  have longer : Callable.meet (some f) (some g) = .ok (some g) ∧ g.isSubtypeOf f = .ok false := by
    exact ⟨by cbv, by decide +kernel⟩
  have inside : Callable.meet (some (takes f)) (some (takes h)) = .ok (some (takes h)) ∧
      (takes h).isSubtypeOf (takes f) = .ok false := by
    exact ⟨by cbv, by decide +kernel⟩
  exact ⟨concrete.1, concrete.2.1, concrete.2.2.1, concrete.2.2.2, longer.1, longer.2, inside⟩

end SignatureLattice
