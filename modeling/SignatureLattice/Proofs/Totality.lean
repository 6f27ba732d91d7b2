/-
Module: SignatureLattice.Proofs.Totality
Purpose: No operation fails on deeply valid operands, and what it yields is deeply valid, so no
  expression made of the operations can fail: no slot that is needed is absent, no draft of a merge
  or of a subtype test is refused what is stated to it, and nothing precise is merged as loose.
Main exports: Signature.isSubtypeOf_total, Signature.isCompatibleWith_total, SignatureTerm,
  TypeTerm, SignatureTerm.eval, TypeTerm.eval, operations_total
-/
import SignatureLattice.Proofs.Compatibility

namespace SignatureLattice

/-!
### The tests
-/

theorem Signature.isSubtypeOf_total {f g : Signature} (hf : f.DeeplyValid) (hg : g.DeeplyValid) :
    ∃ holds, f.isSubtypeOf g = .ok holds := by
  match f, g with
  | _, .top _ => exact ⟨true, by simp [Signature.isSubtypeOf]⟩
  | .top _, .shaped _ => exact ⟨false, by simp [Signature.isSubtypeOf]⟩
  | .shaped s, .shaped t =>
      obtain ⟨u, hu, -⟩ := Signature.combine_total .join hf (Shape.demand_deeplyValid s hg)
      refine ⟨(Signature.shaped (s.demand t)).same u, ?_⟩
      rw [Signature.isSubtypeOf_shaped, show s.validate = .ok () from hf.own,
        show t.validate = .ok () from hg.own]
      simp only [hu]
      rfl

theorem Signature.isCompatibleWith_total {f g : Signature} (hf : f.DeeplyValid)
    (hg : g.DeeplyValid) (loose : f.isLoose ∨ g.isLoose) :
    ∃ holds, f.isCompatibleWith g = .ok holds :=
  (Signature.isCompatibleWith_decides hf hg loose).imp fun _ answer => answer.1

/-!
### Expressions
-/

/-- The signature that an operation has yielded, which has to be there. -/
def Callable.require : Callable → Except Violation Signature
  | some f => .ok f
  | none => .error .absentCallable

/-- An expression over signatures. -/
inductive SignatureTerm where
  | given (f : Signature)
  | combine (bound : Bound) (left right : SignatureTerm)
  | specialize (left right : SignatureTerm)

/-- An expression over types. The functions of an expression over signatures are a type. -/
inductive TypeTerm where
  | given (t : Ty)
  | functions (f : SignatureTerm)
  | combine (bound : Bound) (left right : TypeTerm)

/-- Evaluates an expression from left to right. It fails where one of its operations fails. -/
def SignatureTerm.eval : SignatureTerm → Except Violation Signature
  | .given f => .ok f
  | .combine bound left right => do
      let f ← left.eval
      let g ← right.eval
      Callable.combine bound (some f) (some g) >>= Callable.require
  | .specialize left right => do
      let f ← left.eval
      let g ← right.eval
      f.specialize (some g) >>= Callable.require

@[inherit_doc SignatureTerm.eval]
def TypeTerm.eval : TypeTerm → Except Violation Ty
  | .given t => .ok t
  | .functions f => f.eval >>= fun g => Callable.toTy (some g)
  | .combine bound left right => do
      let a ← left.eval
      let b ← right.eval
      Slot.combine bound (some a) (some b)

/-- Whether all that is given in the expression is deeply valid. -/
def SignatureTerm.DeeplyValid : SignatureTerm → Prop
  | .given f => f.DeeplyValid
  | .combine _ left right | .specialize left right => left.DeeplyValid ∧ right.DeeplyValid

@[inherit_doc SignatureTerm.DeeplyValid]
def TypeTerm.DeeplyValid : TypeTerm → Prop
  | .given t => t.DeeplyValid
  | .functions f => f.DeeplyValid
  | .combine _ left right => left.DeeplyValid ∧ right.DeeplyValid

theorem Slot.combine_total (bound : Bound) {a b : Ty} (ha : a.DeeplyValid) (hb : b.DeeplyValid) :
    ∃ z, Slot.combine bound (some a) (some b) = .ok z ∧ z.DeeplyValid := by
  obtain ⟨z, hz, deep⟩ := Ty.combine_total bound ha hb
  exact ⟨z, by rw [Slot.combine, Slot.both, hz]; rfl, deep⟩

theorem Callable.combine_total (bound : Bound) {f g : Signature} (hf : f.DeeplyValid)
    (hg : g.DeeplyValid) :
    ∃ h, Callable.combine bound (some f) (some g) = .ok (some h) ∧ h.DeeplyValid := by
  obtain ⟨h, hh, deep⟩ := Signature.combine_total bound hf hg
  exact ⟨h, Callable.combine_some.2 hh, deep⟩

theorem Signature.specialize_total {f g : Signature} (hf : f.DeeplyValid) (hg : g.DeeplyValid) :
    ∃ h, f.specialize (some g) = .ok (some h) ∧ h.DeeplyValid := by
  unfold Signature.specialize
  dsimp only
  split
  · exact ⟨f, rfl, hf⟩
  · exact Callable.combine_total .meet hf hg

/-- An expression over deeply valid signatures evaluates to one, whatever its form. -/
theorem SignatureTerm.eval_total (e : SignatureTerm) (h : e.DeeplyValid) :
    ∃ f, e.eval = .ok f ∧ f.DeeplyValid := by
  induction e with
  | given f => exact ⟨f, rfl, h⟩
  | combine bound left right ihl ihr =>
      obtain ⟨f, hf, deep_f⟩ := ihl h.1
      obtain ⟨g, hg, deep_g⟩ := ihr h.2
      obtain ⟨u, hu, deep_u⟩ := Callable.combine_total bound deep_f deep_g
      exact ⟨u, by rw [SignatureTerm.eval, hf, hg]; simp [bind, Except.bind, hu, Callable.require],
        deep_u⟩
  | specialize left right ihl ihr =>
      obtain ⟨f, hf, deep_f⟩ := ihl h.1
      obtain ⟨g, hg, deep_g⟩ := ihr h.2
      obtain ⟨u, hu, deep_u⟩ := Signature.specialize_total deep_f deep_g
      exact ⟨u, by rw [SignatureTerm.eval, hf, hg]; simp [bind, Except.bind, hu, Callable.require],
        deep_u⟩

/-- An expression over deeply valid types and signatures evaluates to a deeply valid type. -/
theorem TypeTerm.eval_total (e : TypeTerm) (h : e.DeeplyValid) :
    ∃ t, e.eval = .ok t ∧ t.DeeplyValid := by
  induction e with
  | given t => exact ⟨t, rfl, h⟩
  | functions f =>
      obtain ⟨g, hg, deep⟩ := f.eval_total h
      exact ⟨.callableOf g, by rw [TypeTerm.eval, hg]; rfl, (Ty.all_callableOf trivial).2 deep⟩
  | combine bound left right ihl ihr =>
      obtain ⟨a, ha, deep_a⟩ := ihl h.1
      obtain ⟨b, hb, deep_b⟩ := ihr h.2
      obtain ⟨z, hz, deep_z⟩ := Slot.combine_total bound deep_a deep_b
      exact ⟨z, by rw [TypeTerm.eval, ha, hb]; simp [bind, Except.bind, hz], deep_z⟩

/-!
### Main theorem
-/

/-- No operation fails on deeply valid operands, except that compatibility is not asked of two
    precise signatures, and every bound and specialization is there and deeply valid. So is the
    value of every expression. -/
theorem operations_total {f g : Signature} {a b : Ty} {e : SignatureTerm} {x : TypeTerm}
    (hf : f.DeeplyValid) (hg : g.DeeplyValid) (ha : a.DeeplyValid) (hb : b.DeeplyValid)
    (he : e.DeeplyValid) (hx : x.DeeplyValid) :
    (∀ bound, ∃ z, Slot.combine bound (some a) (some b) = .ok z ∧ z.DeeplyValid) ∧
      (∀ bound, ∃ h, Callable.combine bound (some f) (some g) = .ok (some h) ∧ h.DeeplyValid) ∧
      (∃ h, f.specialize (some g) = .ok (some h) ∧ h.DeeplyValid) ∧
      (∃ holds, f.isSubtypeOf g = .ok holds) ∧
      (f.isLoose ∨ g.isLoose → ∃ holds, f.isCompatibleWith g = .ok holds) ∧
      (∃ h, e.eval = .ok h ∧ h.DeeplyValid) ∧ ∃ z, x.eval = .ok z ∧ z.DeeplyValid :=
  ⟨fun bound => Slot.combine_total bound ha hb, fun bound => Callable.combine_total bound hf hg,
    Signature.specialize_total hf hg, Signature.isSubtypeOf_total hf hg,
    Signature.isCompatibleWith_total hf hg, e.eval_total he, x.eval_total hx⟩

/-- The theorem at a loose constructor of functions, a variadic signature that takes functions, and
    an expression that merges them. -/
theorem operations_total_nested :
    let inner : Signature := .shaped { required := [some .top], result := some .unknown }
    let f : Signature := .shaped
      { required := [some (.callableOf inner)], optional := [some .unknown],
        rest := some (.callableOf .bottom), result := some (.callableOf (.top true)) }
    let g : Signature := .shaped
      { required := [], rest := some .top, result := some (.callableOf inner),
        owner := some ⟨"Foo", 0⟩, loose := true }
    (∃ holds, f.isSubtypeOf g = .ok holds) ∧ (∃ holds, f.isCompatibleWith g = .ok holds) ∧
      ∃ z, (TypeTerm.functions (.specialize (.combine .join (.given f) (.given g)) (.given f))).eval
        = .ok z ∧ z.DeeplyValid := by
  intro inner f g
  have hf : f.DeeplyValid := by decide
  have hg : g.DeeplyValid := by decide
  have total := operations_total hf hg Ty.deeplyValid_bottom Ty.deeplyValid_bottom
    (show SignatureTerm.DeeplyValid (.given f) from hf)
    (show TypeTerm.DeeplyValid
      (.functions (.specialize (.combine .join (.given f) (.given g)) (.given f))) from
        ⟨⟨hf, hg⟩, hf⟩)
  exact ⟨total.2.2.2.1, total.2.2.2.2.1 (.inr rfl), total.2.2.2.2.2.2⟩

end SignatureLattice
