/-
Module: SignatureLattice.Proofs.Alignment
Purpose: Signatures that take further arguments alike wherever they are joined. Two signatures are
  aligned for a bound when the tails match of any two that are joined in the course of it, at
  whatever depth. All that is nested in signatures of one kind is aligned, and what is left of
  aligned signatures is aligned again.
Main exports: Shape.TailsMatch, Signature.Aligned, Signature.aligned_of_all,
  Signature.Aligned.forget
-/
import SignatureLattice.Proofs.Erasure

namespace SignatureLattice

/-!
### Alignment
-/

/-- The callable part of the type in a slot. -/
def Slot.callable? (x : Slot) : Callable :=
  x.bind Ty.callable?

/-- Both shapes take further arguments, or neither does, or one does and takes any type there. -/
def Shape.TailsMatch (s t : Shape) : Prop :=
  s.rest.isSome = t.rest.isSome ∨ (s.rest.or t.rest).all Ty.isTop = true

theorem Shape.TailsMatch.comm {s t : Shape} (h : s.TailsMatch t) : t.TailsMatch s := by
  unfold TailsMatch at *
  cases hs : s.rest <;> cases ht : t.rest <;> simp_all

/-- Two signatures are aligned for a bound when their tails match if they are joined, and so do the
    tails of all signatures that are joined in the course of it: formals at the same position take
    the dual bound, and results take the same one. -/
inductive Signature.Aligned : Bound → Signature → Signature → Prop where
  | top_left {bound : Bound} {loose : Bool} {g : Signature} : Aligned bound (.top loose) g
  | top_right {bound : Bound} {f : Signature} {loose : Bool} : Aligned bound f (.top loose)
  | shaped {bound : Bound} {s t : Shape}
      (tails : bound = .join → s.TailsMatch t)
      (formals : ∀ i f g, Slot.callable? (s.formalAt? i) = some f →
        Slot.callable? (t.formalAt? i) = some g → Aligned bound.dual f g)
      (results : ∀ f g, Slot.callable? s.result = some f → Slot.callable? t.result = some g →
        Aligned bound f g) :
      Aligned bound (.shaped s) (.shaped t)

/-- Two types are aligned when their callable parts are. -/
def Ty.Aligned (bound : Bound) (a b : Ty) : Prop :=
  ∀ f g, a.callable? = some f → b.callable? = some g → f.Aligned bound g

/-- Two slots are aligned when the types in them are. -/
def Slot.Aligned (bound : Bound) (x y : Slot) : Prop :=
  ∀ a b, x = some a → y = some b → a.Aligned bound b

namespace Signature.Aligned

variable {bound : Bound} {s t : Shape}

theorem tails (h : (Signature.shaped s).Aligned bound (.shaped t)) :
    bound = .join → s.TailsMatch t := by
  cases h with
  | shaped tails _ _ => exact tails

theorem formals (h : (Signature.shaped s).Aligned bound (.shaped t)) (i : Nat) :
    Slot.Aligned bound.dual (s.formalAt? i) (t.formalAt? i) := by
  cases h with
  | shaped _ formals _ =>
      intro a b ha hb f g hf hg
      exact formals i f g (by rw [ha]; exact hf) (by rw [hb]; exact hg)

theorem results (h : (Signature.shaped s).Aligned bound (.shaped t)) :
    Slot.Aligned bound s.result t.result := by
  cases h with
  | shaped _ _ results =>
      intro a b ha hb f g hf hg
      exact results f g (by rw [ha]; exact hf) (by rw [hb]; exact hg)

end Signature.Aligned

/-!
### Alignment at every depth

Signatures are aligned when any two that are nested in them have matching tails.
-/

section

variable {C : ClassSet → Prop} {Q : Signature → Prop}

private theorem Signature.aligned_of_all_aux
    (tails : ∀ s t : Shape, Q (.shaped s) → Q (.shaped t) → s.TailsMatch t) {f : Signature}
    (ih : ∀ a, some a ∈ f.slots → ∀ b, a.All C Q → b.All C Q → ∀ bound, a.Aligned bound b)
    {g : Signature} (hf : f.All C Q) (hg : g.All C Q) (bound : Bound) : f.Aligned bound g := by
  match f, g with
  | .top _, _ => exact .top_left
  | .shaped _, .top _ => exact .top_right
  | .shaped s, .shaped t =>
      have slots : ∀ {x y : Slot}, x ∈ s.slots → y ∈ t.slots → ∀ (bound : Bound) (f g : Signature),
          Slot.callable? x = some f → Slot.callable? y = some g → f.Aligned bound g := by
        intro x y hx hy bound f g eqf eqg
        obtain ⟨a, rfl, eqf⟩ := Option.bind_eq_some_iff.1 eqf
        obtain ⟨b, rfl, eqg⟩ := Option.bind_eq_some_iff.1 eqg
        exact ih a hx b (hf.slot hx) (hg.slot hy) bound f g eqf eqg
      exact .shaped (fun _ => tails s t hf.own hg.own)
        (fun i => slots (s.formalAt?_mem_slots i) (t.formalAt?_mem_slots i) bound.dual)
        (slots s.result_mem_slots t.result_mem_slots bound)

private theorem Ty.aligned_of_all
    (tails : ∀ s t : Shape, Q (.shaped s) → Q (.shaped t) → s.TailsMatch t) {a b : Ty}
    (ha : a.All C Q) (hb : b.All C Q) (bound : Bound) : a.Aligned bound b := by
  induction a using Ty.nested_induction generalizing b bound with
  | top =>
      intro f g hf
      simp [Ty.callable?] at hf
  | unknown =>
      intro f g hf
      simp [Ty.callable?] at hf
  | union p c callable ih =>
      intro f g hf hg
      obtain rfl : callable = some f := hf
      cases b with
      | top => simp [Ty.callable?] at hg
      | unknown => simp [Ty.callable?] at hg
      | union q d other =>
          obtain rfl : other = some g := hg
          exact Signature.aligned_of_all_aux tails
            (fun a ha _ all_a all_b bound => ih f rfl a ha all_a all_b bound)
            ((Ty.all_union.1 ha).2 f rfl) ((Ty.all_union.1 hb).2 g rfl) bound

/-- Signatures are aligned if the tails of all that are nested in them match one another. -/
theorem Signature.aligned_of_all
    (tails : ∀ s t : Shape, Q (.shaped s) → Q (.shaped t) → s.TailsMatch t) {f g : Signature}
    (hf : f.All C Q) (hg : g.All C Q) (bound : Bound) : f.Aligned bound g :=
  Signature.aligned_of_all_aux tails
    (fun _ _ _ ha hb bound => Ty.aligned_of_all tails ha hb bound) hf hg bound

end

/-!
### What is left of aligned signatures
-/

theorem Slot.callable?_forget {keep : Bool} (x : Slot) :
    Slot.callable? (Slot.forget keep x) = (Slot.callable? x).map (Signature.forget keep) := by
  match x with
  | none => rfl
  | some .top => rfl
  | some .unknown => rfl
  | some (.union p c f) => cases f <;> rfl

theorem Ty.callable?_forget {keep : Bool} (a : Ty) :
    (a.forget keep).callable? = a.callable?.map (Signature.forget keep) :=
  Slot.callable?_forget (some a)

theorem Shape.tailsMatch_forget {keep : Bool} {s t : Shape} (h : s.TailsMatch t) :
    (s.forget keep).TailsMatch (t.forget keep) := by
  unfold TailsMatch at *
  cases hs : s.rest <;> cases ht : t.rest <;> simp_all

/-- What is left of aligned signatures is aligned. -/
theorem Signature.Aligned.forget {keep : Bool} {bound : Bound} {f g : Signature}
    (h : f.Aligned bound g) : (f.forget keep).Aligned bound (g.forget keep) := by
  induction h with
  | top_left => exact .top_left
  | top_right => exact .top_right
  | shaped tails formals results ihformals ihresults =>
      refine .shaped ?_ ?_ ?_
      · intro join
        exact Shape.tailsMatch_forget (tails join)
      · intro i f' g' hf hg
        rw [Shape.forget_formalAt?, Slot.callable?_forget] at hf hg
        obtain ⟨f, eqf, rfl⟩ := Option.map_eq_some_iff.1 hf
        obtain ⟨g, eqg, rfl⟩ := Option.map_eq_some_iff.1 hg
        exact ihformals i f g eqf eqg
      · intro f' g' hf hg
        rw [Shape.forget_result, Slot.callable?_forget] at hf hg
        obtain ⟨f, eqf, rfl⟩ := Option.map_eq_some_iff.1 hf
        obtain ⟨g, eqg, rfl⟩ := Option.map_eq_some_iff.1 hg
        exact ihresults f g eqf eqg

end SignatureLattice
