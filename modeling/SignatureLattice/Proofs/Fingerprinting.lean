/-
Module: SignatureLattice.Proofs.Fingerprinting
Purpose: What equality and fingerprints look at. Both walk through a tree on their own, and both
  pass over constructed classes, captured variables and looseness: equality holds exactly when
  nothing else tells two trees apart, and a fingerprint is a function of what is left of a tree. So
  equal trees share their fingerprint, whatever words the classes are known by.
Main exports: Ty.fingerprint_forget, Signature.fingerprint_forget, Slot.same_equivalence,
  Callable.same_equivalence, equality_structural
-/
import SignatureLattice.Fingerprint
import SignatureLattice.Proofs.Erasure

namespace SignatureLattice

/-!
### Fingerprints of what is left

Each stage stirs in the same words before and after forgetting, because forgetting keeps lists of
slots as long as they are and leaves absent slots absent.
-/

theorem Shape.fingerprint_eq (word : NamedClass → UInt64) (s : Shape) :
    s.fingerprint word =
      let required := Slot.fingerprints word s.required.length.toUInt64 s.required
      let optional := Slot.fingerprints word (mix required s.optional.length.toUInt64) s.optional
      mix (mix optional (Slot.fingerprint word s.rest)) (Slot.fingerprint word s.result) := by
  cases s
  rfl

section

variable {word : NamedClass → UInt64} {keep : Bool}

private theorem Slot.fingerprint_forget_of {x : Slot}
    (ih : ∀ a, x = some a → (a.forget keep).fingerprint word = a.fingerprint word) :
    Slot.fingerprint word (Slot.forget keep x) = Slot.fingerprint word x := by
  cases x with
  | none => rfl
  | some a => exact ih a rfl

private theorem Slot.fingerprints_forget_of {l : List Slot}
    (ih : ∀ a, some a ∈ l → (a.forget keep).fingerprint word = a.fingerprint word)
    (seed : UInt64) :
    Slot.fingerprints word seed (l.map (Slot.forget keep)) =
      Slot.fingerprints word seed l := by
  induction l generalizing seed with
  | nil => rfl
  | cons x xs tail =>
      have head : Slot.fingerprint word (Slot.forget keep x) = Slot.fingerprint word x :=
        Slot.fingerprint_forget_of fun a ha => ih a (ha ▸ List.mem_cons_self ..)
      rw [List.map_cons, Slot.fingerprints, Slot.fingerprints, head]
      exact tail (fun a ha => ih a (List.mem_cons_of_mem x ha)) _

private theorem Signature.fingerprint_forget_of {f : Signature}
    (ih : ∀ a, some a ∈ f.slots → (a.forget keep).fingerprint word = a.fingerprint word) :
    (f.forget keep).fingerprint word = f.fingerprint word := by
  cases f with
  | top loose => rfl
  | shaped s =>
      have formals : ∀ x ∈ s.required ++ s.optional, x ∈ s.slots := fun _ hx =>
        Shape.mem_slots.2 (.inl hx)
      have required := Slot.fingerprints_forget_of (l := s.required) fun a ha =>
        ih a (formals _ (List.mem_append_left _ ha))
      have optional := Slot.fingerprints_forget_of (l := s.optional) fun a ha =>
        ih a (formals _ (List.mem_append_right _ ha))
      have rest := Slot.fingerprint_forget_of (x := s.rest) fun a ha =>
        ih a (ha ▸ s.rest_mem_slots)
      have result := Slot.fingerprint_forget_of (x := s.result) fun a ha =>
        ih a (ha ▸ s.result_mem_slots)
      rw [Signature.forget_shaped, Signature.fingerprint, Signature.fingerprint,
        Shape.fingerprint_eq, Shape.fingerprint_eq]
      simp only [Shape.forget_required, Shape.forget_optional, Shape.forget_rest,
        Shape.forget_result, List.length_map, required, optional, rest, result]

/-- The fingerprint of a type does not look at what is forgotten. -/
theorem Ty.fingerprint_forget (t : Ty) :
    (t.forget keep).fingerprint word = t.fingerprint word := by
  induction t using Ty.nested_induction with
  | top => rfl
  | unknown => rfl
  | union p c callable ih =>
      cases callable with
      | none => rfl
      | some f =>
          rw [Ty.forget_union, Option.map_some, Ty.fingerprint, Ty.fingerprint,
            Callable.fingerprint, Callable.fingerprint, Signature.fingerprint_forget_of (ih f rfl)]

/-- The fingerprint of a signature does not look at what is forgotten. -/
theorem Signature.fingerprint_forget (f : Signature) :
    (f.forget keep).fingerprint word = f.fingerprint word :=
  Signature.fingerprint_forget_of fun a _ => a.fingerprint_forget

theorem Ty.fingerprint_of_same {a b : Ty} (h : a.same b = true) :
    a.fingerprint word = b.fingerprint word := by
  rw [← a.fingerprint_forget , (Ty.same_iff a b).1 h, b.fingerprint_forget]

theorem Signature.fingerprint_of_same {f g : Signature} (h : f.same g = true) :
    f.fingerprint word = g.fingerprint word := by
  rw [← f.fingerprint_forget , (Signature.same_iff f g).1 h, g.fingerprint_forget]

end

/-!
### Equality
-/

/-- Whatever is equal when it is left the same is an equivalence. -/
private theorem equivalence_of_iff {α : Type} {same : α → α → Bool} {left : α → α}
    (h : ∀ a b, same a b = true ↔ left a = left b) : Equivalence fun a b => same a b = true where
  refl a := (h a a).2 rfl
  symm {a b} hab := (h b a).2 ((h a b).1 hab).symm
  trans {a b c} hab hbc := (h a c).2 (((h a b).1 hab).trans ((h b c).1 hbc))

theorem Slot.same_equivalence : Equivalence fun x y : Slot => Slot.same x y = true :=
  equivalence_of_iff Slot.same_iff

theorem Callable.same_equivalence : Equivalence fun f g : Callable => Callable.same f g = true :=
  equivalence_of_iff Callable.same_iff

/-!
### Main theorem
-/

/-- Equality is sameness of what is left when looseness, constructed classes and captured variables
    are forgotten at every depth, for types and signatures that may be absent or incomplete. So it
    is an equivalence; and whatever word each class is known by, equal types and equal signatures
    share their fingerprint. -/
theorem equality_structural :
    (∀ x y : Slot, Slot.same x y = true ↔ Slot.forget false x = Slot.forget false y) ∧
      (∀ f g : Callable,
        Callable.same f g = true ↔ Callable.forget false f = Callable.forget false g) ∧
      (∀ f g : Signature, f.same g = true ↔ f.forget false = g.forget false) ∧
      (Equivalence fun x y : Slot => Slot.same x y = true) ∧
      (Equivalence fun f g : Callable => Callable.same f g = true) ∧
      ∀ word : NamedClass → UInt64,
        (∀ a b : Ty, a.same b = true → a.fingerprint word = b.fingerprint word) ∧
          ∀ f g : Signature, f.same g = true → f.fingerprint word = g.fingerprint word := by
  have types : ∀ (word : NamedClass → UInt64) (a b : Ty), a.same b = true →
      a.fingerprint word = b.fingerprint word := fun _ _ _ => Ty.fingerprint_of_same
  have signatures : ∀ (word : NamedClass → UInt64) (f g : Signature), f.same g = true →
      f.fingerprint word = g.fingerprint word := fun _ _ _ => Signature.fingerprint_of_same
  exact ⟨Slot.same_iff, Callable.same_iff, Signature.same_iff, Slot.same_equivalence,
    Callable.same_equivalence, fun word => ⟨types word, signatures word⟩⟩

end SignatureLattice
