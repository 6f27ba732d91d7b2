/-
Module: SignatureLattice.Proofs.Regularity
Purpose: What the library keeps of every type and signature that it builds: class sets are canonical
  and shapes are normalized, at every depth. Bounds inherit both.
Main exports: Shape.Stripped, Shape.normalized_stripped, Shape.normalized_of_stripped,
  Ty.Regular, Signature.Regular, Inherited.regularity
-/
import Mathlib.Data.List.DropRight
import SignatureLattice.Proofs.Erasure
import SignatureLattice.Proofs.Merging
import SignatureLattice.Proofs.Sets

namespace SignatureLattice

/-- A shape is stripped when it takes no further arguments, or its last optional formal differs from
    the type of further arguments. -/
def Shape.Stripped (s : Shape) : Prop :=
  (s.rest.isSome && s.optional.getLast?.any (Slot.same s.rest)) = false

instance : DecidablePred Shape.Stripped := fun s =>
  inferInstanceAs (Decidable ((s.rest.isSome && s.optional.getLast?.any _) = false))

theorem Shape.stripped_iff {s : Shape} :
    s.Stripped ↔
      s.rest.isSome → ∀ x, s.optional.getLast? = some x → Slot.same s.rest x = false := by
  unfold Shape.Stripped
  cases s.rest <;> cases s.optional.getLast? <;> simp

/-- Normalizing strips a shape. -/
theorem Shape.normalized_stripped (s : Shape) : s.normalized.Stripped := by
  unfold Shape.normalized
  split
  · rename_i absent
    simp [Shape.Stripped, absent]
  · rw [Shape.stripped_iff]
    intro _ x hx
    obtain ⟨present, rfl⟩ := List.mem_getLast?_eq_getLast hx
    exact Bool.eq_false_iff.2 (List.rdropWhile_last_not (Slot.same s.rest) s.optional present)

/-- A stripped shape is normalized already. -/
theorem Shape.normalized_of_stripped {s : Shape} (h : s.Stripped) : s.normalized = s := by
  unfold Shape.normalized
  split
  · rfl
  · rename_i r present
    have stop : s.optional.rdropWhile (Slot.same s.rest) = s.optional := by
      rw [List.rdropWhile_eq_self_iff]
      intro nonempty
      apply Bool.eq_false_iff.1
      exact Shape.stripped_iff.1 h (present ▸ rfl) _ (List.getLast?_eq_some_getLast nonempty)
    rw [List.rdropWhile] at stop
    rw [stop]
    cases s
    rfl

/-- Whether the shape of a signature, if it has one, is stripped. -/
def Signature.Stripped : Signature → Prop
  | .top _ => True
  | .shaped s => s.Stripped

instance : DecidablePred Signature.Stripped
  | .top _ => inferInstanceAs (Decidable True)
  | .shaped s => inferInstanceAs (Decidable s.Stripped)

instance : DecidablePred ClassSet.Canonical := fun classes =>
  inferInstanceAs (Decidable (classes.Pairwise (· < ·)))

/-- A type is regular when all its class sets are canonical and all its signatures are stripped, at
    every depth. -/
abbrev Ty.Regular (t : Ty) : Prop :=
  t.All ClassSet.Canonical Signature.Stripped

/-- A signature is regular when all its class sets are canonical and it is stripped, as are the
    signatures nested in it. -/
abbrev Signature.Regular (f : Signature) : Prop :=
  f.All ClassSet.Canonical Signature.Stripped

/-- Regularity is inherited by bounds. -/
theorem Inherited.regularity : Inherited ClassSet.Canonical Signature.Stripped where
  union _ hd := ClassSet.canonical_union hd
  inter hc _ := ClassSet.canonical_inter hc
  top _ _ := trivial
  merge _ _ h := by
    obtain ⟨-, formals, rest, result, -, -, -, rfl⟩ := Shape.merge_eq_ok.1 h
    exact Shape.normalized_stripped _

theorem Shape.stripped_forget {k : Bool} {s : Shape} (h : s.Stripped) : (s.forget k).Stripped := by
  have eq : (s.forget k).normalized = s.forget k := by
    rw [Shape.normalized_forget, Shape.normalized_of_stripped h]
  exact eq ▸ Shape.normalized_stripped (s.forget k)

end SignatureLattice
