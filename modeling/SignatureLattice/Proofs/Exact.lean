/-
Module: SignatureLattice.Proofs.Exact
Purpose: Exact types and signatures: complete, regular, precise at every depth, and without the
  details that equality passes over. On them equality is identity and both bounds exist, so that the
  bounds are operations and their laws are equations. What is left of a deeply valid regular
  signature without loose parts is exact, and its bounds can be computed there.
Main exports: Ty.Exact, Signature.Exact, Ty.Definite, Signature.Definite, Ty.bound, Signature.bound,
  Signature.combine_eq_bound, Signature.forget_bound, Ty.bound_self, Ty.bound_comm
-/
import SignatureLattice.Proofs.Commutation
import SignatureLattice.Proofs.Irrelevance
import SignatureLattice.Proofs.Validity

namespace SignatureLattice

open Outcome

/-- A signature is exact in itself when it is complete, stripped and precise, constructs no class
    and assumes nothing of captured variables. -/
def Signature.IsExact : Signature → Prop
  | .top loose => loose = false
  | .shaped s =>
      s.validate = .ok () ∧ s.Stripped ∧ s.loose = false ∧ s.owner = none ∧ s.captures = []

/-- A type is exact when its class sets are canonical and its signatures exact, at every depth. -/
abbrev Ty.Exact (t : Ty) : Prop :=
  t.All ClassSet.Canonical Signature.IsExact

/-- A signature is exact at every depth. -/
abbrev Signature.Exact (f : Signature) : Prop :=
  f.All ClassSet.Canonical Signature.IsExact

theorem Signature.IsExact.valid {f : Signature} (h : f.IsExact) : f.validate = .ok () := by
  cases f with
  | top loose => rfl
  | shaped s => exact h.1

theorem Signature.IsExact.stripped {f : Signature} (h : f.IsExact) : f.Stripped := by
  cases f with
  | top loose => trivial
  | shaped s => exact h.2.1

theorem Ty.All.deeplyValid {t : Ty} (h : t.Exact) : t.DeeplyValid :=
  h.imp (fun _ _ => trivial) fun _ => Signature.IsExact.valid

theorem Ty.All.regular {t : Ty} (h : t.Exact) : t.Regular :=
  h.imp (fun _ => id) fun _ => Signature.IsExact.stripped

theorem Signature.All.deeplyValid {f : Signature} (h : f.Exact) : f.DeeplyValid :=
  h.imp (fun _ _ => trivial) fun _ => Signature.IsExact.valid

theorem Signature.All.regular {f : Signature} (h : f.Exact) : f.Regular :=
  h.imp (fun _ => id) fun _ => Signature.IsExact.stripped

/-- The merge of two precise shapes is precise. -/
theorem MergeRule.of_precise (bound : Bound) {s t : Shape} (hs : s.loose = false)
    (ht : t.loose = false) : MergeRule.of bound s t = .precise bound := by
  simp [MergeRule.of, hs, ht]

/-- Exactness is inherited by bounds. -/
theorem Inherited.exactness : Inherited ClassSet.Canonical Signature.IsExact where
  union _ hd := ClassSet.canonical_union hd
  inter hc _ := ClassSet.canonical_inter hc
  top still exact := by
    rw [Signature.IsExact] at exact ⊢
    rw [exact, Bool.false_and]
  merge {bound s t u} hs ht h := by
    refine ⟨Shape.validate_of_merge h, Inherited.regularity.merge hs.stripped ht.stripped h, ?_⟩
    obtain ⟨owner, captures, loose⟩ := Shape.plain_of_merge h
    rw [MergeRule.of_precise bound hs.2.2.1 ht.2.2.1] at loose
    exact ⟨loose, owner, captures⟩

/-- A signature is precise at every depth when no loose signature is nested in it, nor is it loose
    itself. -/
abbrev Signature.DeeplyPrecise (f : Signature) : Prop :=
  f.All (fun _ => True) fun g => g.isLoose = false

/-- Precision is inherited by bounds. -/
theorem Inherited.precision : Inherited (fun _ => True) fun g => g.isLoose = false where
  union _ _ := trivial
  inter _ _ := trivial
  top still precise := by
    rw [Signature.isLoose] at precise ⊢
    rw [precise, Bool.false_and]
  merge {bound s t u} hs ht h := by
    obtain ⟨-, -, loose⟩ := Shape.plain_of_merge h
    rw [MergeRule.of_precise bound hs ht] at loose
    exact loose

/-- What is left of a complete, regular and precise signature is exact. -/
theorem Signature.exact_forget {f : Signature} (valid : f.DeeplyValid) (regular : f.Regular)
    (precise : f.DeeplyPrecise) : (f.forget true).Exact := by
  have all := (valid.and regular).and precise
  refine (all.imp (D := ClassSet.Canonical) (fun _ h => h.1.2) fun _ => id).forget
    ClassSet.canonical_nil ?_
  rintro (loose | s) ⟨⟨valid, stripped⟩, precise⟩
  · have precise : loose = false := precise
    rw [precise]
    rfl
  · have precise : s.loose = false := precise
    rw [Signature.forget_shaped]
    refine ⟨(s.validate_forget true).trans valid, Shape.stripped_forget stripped, ?_, ?_, ?_⟩
    · rw [Shape.forget_loose, precise, Bool.and_false]
    · rw [Shape.forget_eq]
    · rw [Shape.forget_eq]

/-- A signature is definite when it is complete, regular and precise at every depth. -/
structure Signature.Definite (f : Signature) : Prop where
  valid : f.DeeplyValid
  regular : f.Regular
  precise : f.DeeplyPrecise

theorem Signature.Definite.exact {f : Signature} (h : f.Definite) : (f.forget true).Exact :=
  Signature.exact_forget h.valid h.regular h.precise

/-- A type is precise at every depth when no loose signature is nested in it. -/
abbrev Ty.DeeplyPrecise (t : Ty) : Prop :=
  t.All (fun _ => True) fun g => g.isLoose = false

/-- A type is definite when it is complete, regular and precise at every depth. -/
structure Ty.Definite (t : Ty) : Prop where
  valid : t.DeeplyValid
  regular : t.Regular
  precise : t.DeeplyPrecise

theorem Ty.Definite.exact {t : Ty} (h : t.Definite) : (t.forget true).Exact := by
  cases t with
  | top => exact Ty.all_top ClassSet.canonical_nil
  | unknown => exact Ty.all_unknown ClassSet.canonical_nil
  | union p c callable =>
      obtain ⟨canonical, regular⟩ := Ty.all_union.1 h.regular
      refine Ty.all_union.2 ⟨canonical, fun g hg => ?_⟩
      rw [Callable.forget_eq] at hg
      obtain ⟨f, eq, rfl⟩ := Option.map_eq_some_iff.1 hg
      exact Signature.exact_forget ((Ty.all_union.1 h.valid).2 f eq) (regular f eq)
        ((Ty.all_union.1 h.precise).2 f eq)

/-!
### Nothing is left to forget
-/

private theorem Signature.forget_of_exact_of {k : Bool} {f : Signature}
    (ih : ∀ a, some a ∈ f.slots → a.Exact → a.forget k = a) (h : f.Exact) : f.forget k = f := by
  cases f with
  | top loose =>
      have precise : loose = false := h.own
      simp [precise]
  | shaped s =>
      obtain ⟨-, -, precise, owner, captures⟩ := h.own
      have slot : ∀ x ∈ s.slots, Slot.forget k x = x := by
        intro x hx
        cases x with
        | none => rfl
        | some a => rw [Slot.forget_some, ih a hx (h.slot hx)]
      have list : ∀ l : List Slot, (∀ x ∈ l, x ∈ s.slots) → l.map (Slot.forget k) = l := by
        intro l hl
        rw [List.map_congr_left fun x hx => slot x (hl x hx), List.map_id']
      have formals : ∀ x ∈ s.required ++ s.optional, x ∈ s.slots := fun _ hx =>
        Shape.mem_slots.2 (.inl hx)
      rw [Signature.forget_shaped, Shape.forget_eq,
        list s.required fun x hx => formals x (List.mem_append_left _ hx),
        list s.optional fun x hx => formals x (List.mem_append_right _ hx),
        slot s.rest s.rest_mem_slots, slot s.result s.result_mem_slots]
      obtain ⟨_, _, _, _, _, _, _⟩ := s
      subst owner captures precise
      simp

theorem Ty.forget_of_exact {k : Bool} {t : Ty} (h : t.Exact) : t.forget k = t := by
  induction t using Ty.nested_induction with
  | top => rfl
  | unknown => rfl
  | union p c callable ih =>
      cases callable with
      | none => rfl
      | some f =>
          rw [Ty.forget_union, Option.map_some,
            Signature.forget_of_exact_of (ih f rfl) ((Ty.all_union.1 h).2 f rfl)]

theorem Signature.forget_of_exact {k : Bool} {f : Signature} (h : f.Exact) : f.forget k = f :=
  Signature.forget_of_exact_of (fun _ _ => Ty.forget_of_exact) h

/-- Exact signatures are equal only if they are the same. -/
theorem Signature.same_iff_eq {f g : Signature} (hf : f.Exact) (hg : g.Exact) :
    f.same g = true ↔ f = g := by
  rw [Signature.same_iff, Signature.forget_of_exact hf, Signature.forget_of_exact hg]

theorem Shape.same_iff_eq {s t : Shape} (hs : (Signature.shaped s).Exact)
    (ht : (Signature.shaped t).Exact) : s.same t = true ↔ s = t := by
  simpa [Signature.same] using Signature.same_iff_eq hs ht

theorem Ty.exact_bottom : Ty.bottom.Exact :=
  Ty.all_union.2 ⟨ClassSet.canonical_nil, by simp⟩

theorem Signature.exact_bottom : Signature.bottom.Exact := by
  refine Signature.all_iff.2 ⟨⟨rfl, by decide, rfl, rfl, rfl⟩, fun t ht => ?_⟩
  rcases Shape.mem_slots.1 ht with ht | ht | ht
  · simp [Shape.bottom] at ht
  · cases ht
    exact Ty.all_top ClassSet.canonical_nil
  · cases ht
    exact Ty.exact_bottom

theorem Shape.isBottom_iff {s : Shape} (hs : (Signature.shaped s).Exact) :
    s.isBottom = true ↔ s = .bottom :=
  Shape.same_iff_eq hs Signature.exact_bottom

/-!
### Bounds as operations
-/

/-- The bound of two types, where there is one. -/
def Ty.bound (bound : Bound) (a b : Ty) : Ty :=
  (Ty.combine bound a b).toOption.getD .top

/-- The bound of two signatures, where there is one. -/
def Signature.bound (bound : Bound) (f g : Signature) : Signature :=
  (Signature.combine bound f g).toOption.getD (.top false)

theorem Ty.bound_eq_of_combine {bound : Bound} {a b z : Ty} (h : Ty.combine bound a b = .ok z) :
    Ty.bound bound a b = z := by
  rw [Ty.bound, h]
  rfl

theorem Signature.bound_eq_of_combine {bound : Bound} {f g u : Signature}
    (h : Signature.combine bound f g = .ok u) : Signature.bound bound f g = u := by
  rw [Signature.bound, h]
  rfl

theorem Ty.combine_eq_bound (bound : Bound) {a b : Ty} (ha : a.DeeplyValid) (hb : b.DeeplyValid) :
    Ty.combine bound a b = .ok (Ty.bound bound a b) := by
  obtain ⟨z, hz, -⟩ := Ty.combine_total bound ha hb
  rw [hz, Ty.bound_eq_of_combine hz]

theorem Signature.combine_eq_bound (bound : Bound) {f g : Signature} (hf : f.DeeplyValid)
    (hg : g.DeeplyValid) : Signature.combine bound f g = .ok (Signature.bound bound f g) := by
  obtain ⟨u, hu, -⟩ := Signature.combine_total bound hf hg
  rw [hu, Signature.bound_eq_of_combine hu]

theorem Signature.deeplyValid_bound (bound : Bound) {f g : Signature} (hf : f.DeeplyValid)
    (hg : g.DeeplyValid) : (Signature.bound bound f g).DeeplyValid :=
  Signature.all_of_combine .validity hf hg (Signature.combine_eq_bound bound hf hg)

theorem Signature.Definite.bound (bound : Bound) {f g : Signature} (hf : f.Definite)
    (hg : g.Definite) : (Signature.bound bound f g).Definite where
  valid := Signature.deeplyValid_bound bound hf.valid hg.valid
  regular := Signature.all_of_combine .regularity hf.regular hg.regular
    (Signature.combine_eq_bound bound hf.valid hg.valid)
  precise := Signature.all_of_combine .precision hf.precise hg.precise
    (Signature.combine_eq_bound bound hf.valid hg.valid)

theorem Callable.combine_eq_bound (bound : Bound) {f g : Signature} (hf : f.DeeplyValid)
    (hg : g.DeeplyValid) :
    Callable.combine bound (some f) (some g) = .ok (some (Signature.bound bound f g)) := by
  rw [Callable.combine, Signature.combine_eq_bound bound hf hg]
  rfl

/-- What is left of a bound is the bound of what is left of the operands. -/
theorem Signature.forget_bound (bound : Bound) {f g : Signature} (hf : f.DeeplyValid)
    (hg : g.DeeplyValid) :
    (Signature.bound bound f g).forget true =
      Signature.bound bound (f.forget true) (g.forget true) := by
  refine (Signature.bound_eq_of_combine ?_).symm
  rw [Signature.combine_forget, Signature.combine_eq_bound bound hf hg]
  rfl

theorem Ty.forget_bound (bound : Bound) {a b : Ty} (ha : a.DeeplyValid) (hb : b.DeeplyValid) :
    (Ty.bound bound a b).forget true = Ty.bound bound (a.forget true) (b.forget true) := by
  refine (Ty.bound_eq_of_combine ?_).symm
  rw [Ty.combine_forget, Ty.combine_eq_bound bound ha hb]
  rfl

theorem Ty.exact_bound (bound : Bound) {a b : Ty} (ha : a.Exact) (hb : b.Exact) :
    (Ty.bound bound a b).Exact :=
  Ty.all_of_combine .exactness ha hb
    (Ty.combine_eq_bound bound ha.deeplyValid hb.deeplyValid)

theorem Signature.exact_bound (bound : Bound) {f g : Signature} (hf : f.Exact) (hg : g.Exact) :
    (Signature.bound bound f g).Exact :=
  Signature.all_of_combine .exactness hf hg
    (Signature.combine_eq_bound bound hf.deeplyValid hg.deeplyValid)

@[simp] theorem Ty.bound_top (bound : Bound) (a : Ty) :
    Ty.bound bound .top a = bound.pick .top a :=
  Ty.bound_eq_of_combine (by rw [Ty.combine])

@[simp] theorem Ty.bound_top_right (bound : Bound) (a : Ty) :
    Ty.bound bound a .top = bound.pick .top a :=
  Ty.bound_eq_of_combine (by cases a <;> rw [Ty.combine] <;> simp)

@[simp] theorem Ty.bound_unknown_unknown (bound : Bound) :
    Ty.bound bound .unknown .unknown = .unknown :=
  Ty.bound_eq_of_combine (by cases bound <;> simp [Ty.combine, Bound.pick])

@[simp] theorem Ty.bound_unknown_union (bound : Bound) (p : Primitives) (c : ClassSet)
    (f : Callable) :
    Ty.bound bound .unknown (.union p c f) = bound.pick .unknown (.union p c f) :=
  Ty.bound_eq_of_combine (by simp [Ty.combine])

@[simp] theorem Ty.bound_union_unknown (bound : Bound) (p : Primitives) (c : ClassSet)
    (f : Callable) :
    Ty.bound bound (.union p c f) .unknown = bound.pick .unknown (.union p c f) :=
  Ty.bound_eq_of_combine (by simp [Ty.combine])

/-- The bound of two callable parts, where there is one. -/
def Callable.bound (bound : Bound) : Callable → Callable → Callable
  | some f, some g => some (Signature.bound bound f g)
  | f, g => bound.pick (f.or g) none

theorem Ty.bound_union (bound : Bound) {p q : Primitives} {c d : ClassSet} {f g : Callable}
    (ha : (Ty.union p c f).Exact) (hb : (Ty.union q d g).Exact) :
    Ty.bound bound (.union p c f) (.union q d g) =
      .union (bound.pick (p.union q) (p.inter q)) (bound.pick (c.union d) (c.inter d))
        (Callable.bound bound f g) := by
  apply Ty.bound_eq_of_combine
  have callable : Callable.combine bound f g = .ok (Callable.bound bound f g) := by
    cases f with
    | none => cases g <;> simp [Callable.combine, Callable.bound]
    | some f =>
        cases g with
        | none => simp [Callable.combine, Callable.bound]
        | some g =>
            have hf := (Ty.all_union.1 ha).2 f rfl
            have hg := (Ty.all_union.1 hb).2 g rfl
            rw [Callable.combine, Signature.combine_eq_bound bound hf.deeplyValid hg.deeplyValid]
            rfl
  rw [Ty.combine_union, callable]
  rfl

/-- Of the two top sentinels the precise one is exact. -/
theorem Signature.top_of_exact {loose : Bool} (h : (Signature.top loose).Exact) :
    Signature.top loose = .top false :=
  congrArg Signature.top h.own

@[simp] theorem Signature.bound_top (bound : Bound) (g : Signature) :
    Signature.bound bound (.top false) g = bound.pick (.top false) g :=
  Signature.bound_eq_of_combine (by rw [Signature.combine, Bool.false_and])

@[simp] theorem Signature.bound_top_right (bound : Bound) {f : Signature} (hf : f.Exact) :
    Signature.bound bound f (.top false) = bound.pick (.top false) f := by
  cases f with
  | top loose =>
      have precise : loose = false := hf.own
      subst precise
      simp
  | shaped s => exact Signature.bound_eq_of_combine (by simp [Signature.combine])

/-!
### Idempotence and commutation
-/

theorem Signature.same_refl (f : Signature) : f.same f = true :=
  (Signature.same_iff f f).2 rfl

theorem Signature.bound_self (bound : Bound) (f : Signature) : Signature.bound bound f f = f := by
  apply Signature.bound_eq_of_combine
  cases f with
  | top loose => cases bound <;> simp [Signature.combine, Bound.pick, Signature.isTop]
  | shaped s =>
      have same : s.same s = true := Signature.same_refl (.shaped s)
      cases bound <;> simp [Signature.combine, Shape.dominant?, same]

theorem Ty.bound_self (bound : Bound) {t : Ty} (h : t.Exact) : Ty.bound bound t t = t := by
  cases t with
  | top => cases bound <;> simp [Bound.pick]
  | unknown => simp
  | union p c f =>
      have canonical := (Ty.all_union.1 h).1
      rw [Ty.bound_union bound h h, Primitives.pick_self, ClassSet.pick_self bound canonical]
      cases f with
      | none => cases bound <;> rfl
      | some f => rw [Callable.bound, Signature.bound_self]

theorem Ty.bound_comm (bound : Bound) {a b : Ty} (ha : a.Exact) (hb : b.Exact) :
    Ty.bound bound a b = Ty.bound bound b a := by
  have comm := Ty.combine_comm bound ha.regular hb.regular
  rw [Ty.combine_eq_bound bound ha.deeplyValid hb.deeplyValid,
    Ty.combine_eq_bound bound hb.deeplyValid ha.deeplyValid, related_ok,
    Ty.forget_of_exact (Ty.exact_bound bound ha hb),
    Ty.forget_of_exact (Ty.exact_bound bound hb ha)] at comm
  exact comm

theorem Signature.bound_comm (bound : Bound) {f g : Signature} (hf : f.Exact) (hg : g.Exact) :
    Signature.bound bound f g = Signature.bound bound g f := by
  have comm := Signature.combine_comm bound hf.regular hg.regular
  rw [Signature.combine_eq_bound bound hf.deeplyValid hg.deeplyValid,
    Signature.combine_eq_bound bound hg.deeplyValid hf.deeplyValid, related_ok,
    Signature.forget_of_exact (Signature.exact_bound bound hf hg),
    Signature.forget_of_exact (Signature.exact_bound bound hg hf)] at comm
  exact comm

end SignatureLattice
