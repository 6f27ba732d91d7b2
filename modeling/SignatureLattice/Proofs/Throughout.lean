/-
Module: SignatureLattice.Proofs.Throughout
Purpose: Conditions on three shapes that hold wherever three signatures are joined in the course of
  a bound, at whatever depth. Formals take the dual bound, so a condition on joined shapes comes
  back two levels down. A condition that is a matter of what is left of shapes is one throughout.
Main exports: Signature.Throughout, Slot.throughout_iff, Signature.throughout_shaped_iff,
  Ty.throughout_forget, Slot.throughout_forget, Signature.throughout_forget
-/
import SignatureLattice.Proofs.Alignment
import SignatureLattice.Proofs.Merging

namespace SignatureLattice

/-!
### Three operands
-/

/-- A condition on three shapes holds throughout a bound of three signatures when it holds of them
    if they are joined, and throughout the bounds of all that are nested in them at the same place:
    formals take the dual bound, and results take the same one. -/
inductive Signature.Throughout (P : Shape → Shape → Shape → Prop) :
    Bound → Signature → Signature → Signature → Prop where
  | top {bound : Bound} {f g h : Signature} (extreme : f.isTop ∨ g.isTop ∨ h.isTop) :
      Throughout P bound f g h
  | shaped {bound : Bound} {s t v : Shape}
      (own : bound = .join → P s t v)
      (formals : ∀ i f g h, Slot.callable? (s.formalAt? i) = some f →
        Slot.callable? (t.formalAt? i) = some g → Slot.callable? (v.formalAt? i) = some h →
        Throughout P bound.dual f g h)
      (results : ∀ f g h, Slot.callable? s.result = some f → Slot.callable? t.result = some g →
        Slot.callable? v.result = some h → Throughout P bound f g h) :
      Throughout P bound (.shaped s) (.shaped t) (.shaped v)

/-- It holds throughout the bounds of three types when it does of their callable parts. -/
def Ty.Throughout (P : Shape → Shape → Shape → Prop) (bound : Bound) (a b c : Ty) : Prop :=
  ∀ f g h, a.callable? = some f → b.callable? = some g → c.callable? = some h →
    Signature.Throughout P bound f g h

/-- It holds throughout the bounds of three slots when it does of the types in them. -/
def Slot.Throughout (P : Shape → Shape → Shape → Prop) (bound : Bound) (x y z : Slot) : Prop :=
  ∀ a b c, x = some a → y = some b → z = some c → Ty.Throughout P bound a b c

section

variable {P : Shape → Shape → Shape → Prop} {bound : Bound}

theorem Slot.throughout_iff {x y z : Slot} :
    Slot.Throughout P bound x y z ↔ ∀ f g h, Slot.callable? x = some f →
      Slot.callable? y = some g → Slot.callable? z = some h →
        Signature.Throughout P bound f g h := by
  constructor
  · intro throughout f g h hf hg hh
    obtain ⟨a, rfl, eqf⟩ := Option.bind_eq_some_iff.1 hf
    obtain ⟨b, rfl, eqg⟩ := Option.bind_eq_some_iff.1 hg
    obtain ⟨c, rfl, eqh⟩ := Option.bind_eq_some_iff.1 hh
    exact throughout a b c rfl rfl rfl f g h eqf eqg eqh
  · rintro throughout a b c rfl rfl rfl f g h eqf eqg eqh
    exact throughout f g h eqf eqg eqh

theorem Signature.throughout_shaped_iff {s t v : Shape} :
    Signature.Throughout P bound (.shaped s) (.shaped t) (.shaped v) ↔
      (bound = .join → P s t v) ∧
        (∀ i, Slot.Throughout P bound.dual (s.formalAt? i) (t.formalAt? i) (v.formalAt? i)) ∧
        Slot.Throughout P bound s.result t.result v.result := by
  simp only [Slot.throughout_iff]
  constructor
  · intro throughout
    cases throughout with
    | top extreme => simp [Signature.isTop] at extreme
    | shaped own formals results => exact ⟨own, formals, results⟩
  · rintro ⟨own, formals, results⟩
    exact .shaped own formals results

theorem Ty.throughout_of_extreme {a b c : Ty}
    (extreme : a.isExtreme ∨ b.isExtreme ∨ c.isExtreme) : Ty.Throughout P bound a b c := by
  intro f g h hf hg hh
  cases a <;> cases b <;> cases c <;>
    simp_all [Ty.callable?, Ty.isExtreme, Ty.isTop, Ty.isUnknown]

end

/-!
### What is left of three operands
-/

section

variable {P : Shape → Shape → Shape → Prop}

private def ThroughoutForgets (P : Shape → Shape → Shape → Prop) (a : Ty) : Prop :=
  ∀ (bound : Bound) (b c : Ty), Ty.Throughout P bound (a.forget true) (b.forget true)
    (c.forget true) ↔ Ty.Throughout P bound a b c

private theorem Slot.throughout_forget_of {x y z : Slot}
    (ih : ∀ a, x = some a → ThroughoutForgets P a) (bound : Bound) :
    Slot.Throughout P bound (Slot.forget true x) (Slot.forget true y) (Slot.forget true z) ↔
      Slot.Throughout P bound x y z := by
  match x, y, z with
  | some a, some b, some c => simpa [Slot.Throughout] using ih a rfl bound b c
  | none, _, _ => simp [Slot.Throughout]
  | some _, none, _ => simp [Slot.Throughout]
  | some _, some _, none => simp [Slot.Throughout]

private theorem Signature.throughout_forget_of
    (own : ∀ s t v : Shape, P (s.forget true) (t.forget true) (v.forget true) ↔ P s t v)
    {f : Signature} (ih : ∀ a, some a ∈ f.slots → ThroughoutForgets P a) (bound : Bound)
    (g h : Signature) :
    Signature.Throughout P bound (f.forget true) (g.forget true) (h.forget true) ↔
      Signature.Throughout P bound f g h := by
  match f, g, h with
  | .top _, _, _ => exact iff_of_true (.top (.inl rfl)) (.top (.inl rfl))
  | .shaped _, .top _, _ => exact iff_of_true (.top (.inr (.inl rfl))) (.top (.inr (.inl rfl)))
  | .shaped _, .shaped _, .top _ =>
      exact iff_of_true (.top (.inr (.inr rfl))) (.top (.inr (.inr rfl)))
  | .shaped s, .shaped t, .shaped v =>
      have slots : ∀ {x : Slot}, x ∈ s.slots → ∀ a, x = some a → ThroughoutForgets P a :=
        fun hx a ha => ih a (ha ▸ hx)
      have formals : ∀ i, Slot.Throughout P bound.dual ((s.forget true).formalAt? i)
          ((t.forget true).formalAt? i) ((v.forget true).formalAt? i) ↔
            Slot.Throughout P bound.dual (s.formalAt? i) (t.formalAt? i) (v.formalAt? i) := by
        intro i
        simp only [Shape.forget_formalAt?]
        exact Slot.throughout_forget_of (slots (s.formalAt?_mem_slots i)) bound.dual
      simp only [Signature.forget_shaped, Signature.throughout_shaped_iff, own, formals,
        Shape.forget_result, Slot.throughout_forget_of (slots s.result_mem_slots)]

variable (own : ∀ s t v : Shape, P (s.forget true) (t.forget true) (v.forget true) ↔ P s t v)
include own

/-- A condition that is a matter of what is left of shapes is a matter of what is left of types
    throughout their bounds. -/
theorem Ty.throughout_forget (bound : Bound) (a b c : Ty) :
    Ty.Throughout P bound (a.forget true) (b.forget true) (c.forget true) ↔
      Ty.Throughout P bound a b c := by
  suffices all : ∀ a, ThroughoutForgets P a from all a bound b c
  intro a
  induction a using Ty.nested_induction with
  | top => intro bound b c; simp [Ty.Throughout, Ty.callable?]
  | unknown => intro bound b c; simp [Ty.Throughout, Ty.callable?]
  | union p classes f ih =>
      intro bound b c
      have signatures : ∀ f' g h, f = some f' →
          (Signature.Throughout P bound (f'.forget true) (g.forget true) (h.forget true) ↔
            Signature.Throughout P bound f' g h) :=
        fun f' g h eq => Signature.throughout_forget_of own (ih f' eq) bound g h
      simp only [Ty.Throughout, Ty.callable?_forget, Option.map_eq_some_iff]
      constructor
      · intro throughout f' g h hf hg hh
        exact (signatures f' g h hf).1 (throughout _ _ _ ⟨f', hf, rfl⟩ ⟨g, hg, rfl⟩ ⟨h, hh, rfl⟩)
      · rintro throughout _ _ _ ⟨f', hf, rfl⟩ ⟨g, hg, rfl⟩ ⟨h, hh, rfl⟩
        exact (signatures f' g h hf).2 (throughout f' g h hf hg hh)

theorem Slot.throughout_forget (bound : Bound) (x y z : Slot) :
    Slot.Throughout P bound (Slot.forget true x) (Slot.forget true y) (Slot.forget true z) ↔
      Slot.Throughout P bound x y z :=
  Slot.throughout_forget_of (fun a _ bound => Ty.throughout_forget own bound a) bound

theorem Signature.throughout_forget (bound : Bound) (f g h : Signature) :
    Signature.Throughout P bound (f.forget true) (g.forget true) (h.forget true) ↔
      Signature.Throughout P bound f g h :=
  Signature.throughout_forget_of own
    (fun a _ bound => Ty.throughout_forget own bound a) bound g h

end

end SignatureLattice
