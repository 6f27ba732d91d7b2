/-
Module: SignatureLattice.Proofs.Sets
Purpose: The laws of the sets that a union type is made of. The canonical order of classes is a
  strict total order, so a canonical class list is determined by its members; union and intersection
  keep lists canonical and obey the laws of sets.
Main exports: ClassSet.canonical_insert, ClassSet.canonical_union, ClassSet.canonical_inter,
  ClassSet.ext_of_canonical, ClassSet.pick_comm, ClassSet.pick_assoc, ClassSet.pick_trans,
  ClassSet.pick_dual, ClassSet.pick_again, Primitives.pick_comm, Primitives.pick_assoc,
  Primitives.pick_trans, Primitives.pick_dual, Primitives.pick_again
-/
import Mathlib.Data.List.Sort
import SignatureLattice.NamedClass
import SignatureLattice.Operation
import SignatureLattice.Primitives

namespace SignatureLattice

/-!
### The canonical order of classes
-/

namespace NamedClass

theorem lt_iff {a b : NamedClass} :
    a < b ↔ a.name < b.name ∨ a.name = b.name ∧ a.serial < b.serial := Iff.rfl

protected theorem lt_irrefl (a : NamedClass) : ¬ a < a := by
  rw [lt_iff]
  rintro (h | ⟨-, h⟩)
  · exact String.lt_irrefl _ h
  · exact Nat.lt_irrefl _ h

protected theorem lt_trans {a b c : NamedClass} (hab : a < b) (hbc : b < c) : a < c := by
  rw [lt_iff] at *
  rcases hab with hab | ⟨eab, hab⟩ <;> rcases hbc with hbc | ⟨ebc, hbc⟩
  · exact .inl (String.lt_trans hab hbc)
  · exact .inl (ebc ▸ hab)
  · exact .inl (eab ▸ hbc)
  · exact .inr ⟨eab.trans ebc, Nat.lt_trans hab hbc⟩

/-- Of two different classes one comes first, also if they share their name. -/
theorem lt_or_lt_of_ne {a b : NamedClass} (h : a ≠ b) : a < b ∨ b < a := by
  rw [lt_iff, lt_iff]
  by_cases names : a.name = b.name
  · have serials : a.serial ≠ b.serial := fun eq => h (by cases a; cases b; simp_all)
    rcases Nat.lt_or_gt_of_ne serials with lt | lt
    · exact .inl (.inr ⟨names, lt⟩)
    · exact .inr (.inr ⟨names.symm, lt⟩)
  · by_cases lt : a.name < b.name
    · exact .inl (.inl lt)
    · by_cases gt : b.name < a.name
      · exact .inr (.inl gt)
      · exact absurd (String.le_antisymm gt lt) names

instance : Std.Irrefl (α := NamedClass) (· < ·) := ⟨NamedClass.lt_irrefl⟩

instance : Std.Antisymm (α := NamedClass) (· < ·) :=
  ⟨fun a _ hab hba => absurd (NamedClass.lt_trans hab hba) a.lt_irrefl⟩

end NamedClass

/-!
### Class sets
-/

namespace ClassSet

theorem canonical_nil : Canonical [] := List.Pairwise.nil

theorem canonical_singleton (c : NamedClass) : Canonical [c] := List.pairwise_singleton _ c

theorem canonical_insert {classes : ClassSet} (c : NamedClass) (h : classes.Canonical) :
    (insert c classes).Canonical := by
  induction classes with
  | nil => exact canonical_singleton c
  | cons d rest ih =>
      obtain ⟨head, tail⟩ := List.pairwise_cons.1 h
      unfold insert
      split
      · exact h
      · rename_i different
        split
        · rename_i first
          refine List.pairwise_cons.2 ⟨fun e he => ?_, h⟩
          rcases List.mem_cons.1 he with rfl | he
          · exact first
          · exact NamedClass.lt_trans first (head e he)
        · rename_i later
          refine List.pairwise_cons.2 ⟨fun e he => ?_, ih tail⟩
          rcases mem_insert.1 he with rfl | he
          · exact (NamedClass.lt_or_lt_of_ne different).resolve_left later
          · exact head e he

theorem canonical_union {a b : ClassSet} (hb : b.Canonical) : (a.union b).Canonical := by
  induction a with
  | nil => exact hb
  | cons c rest ih => exact canonical_insert c ih

theorem canonical_inter {a b : ClassSet} (ha : a.Canonical) : (a.inter b).Canonical :=
  List.Pairwise.filter _ ha

/-- A canonical list is determined by its members. -/
theorem ext_of_canonical {a b : ClassSet} (ha : a.Canonical) (hb : b.Canonical)
    (h : ∀ c, c ∈ a ↔ c ∈ b) : a = b :=
  List.Pairwise.eq_of_mem_iff ha hb h

variable {a b c : ClassSet}

theorem canonical_pick (bound : Bound) (ha : a.Canonical) (hb : b.Canonical) :
    (bound.pick (a.union b) (a.inter b)).Canonical := by
  cases bound with
  | join => exact canonical_union hb
  | meet => exact canonical_inter ha

theorem pick_comm (bound : Bound) (ha : a.Canonical) (hb : b.Canonical) :
    bound.pick (a.union b) (a.inter b) = bound.pick (b.union a) (b.inter a) := by
  apply ext_of_canonical (canonical_pick bound ha hb) (canonical_pick bound hb ha)
  intro c
  cases bound with
  | join => simp only [Bound.pick, mem_union, or_comm]
  | meet => simp only [Bound.pick, mem_inter, and_comm]

theorem pick_self (bound : Bound) (ha : a.Canonical) :
    bound.pick (a.union a) (a.inter a) = a := by
  apply ext_of_canonical (canonical_pick bound ha ha) ha
  intro c
  cases bound with
  | join => simp only [Bound.pick, mem_union, or_self]
  | meet => simp only [Bound.pick, mem_inter, and_self]

theorem pick_assoc (bound : Bound) (ha : a.Canonical) (hb : b.Canonical) (hc : c.Canonical) :
    bound.pick ((bound.pick (a.union b) (a.inter b)).union c)
        ((bound.pick (a.union b) (a.inter b)).inter c) =
      bound.pick (a.union (bound.pick (b.union c) (b.inter c)))
        (a.inter (bound.pick (b.union c) (b.inter c))) := by
  apply ext_of_canonical (canonical_pick bound (canonical_pick bound ha hb) hc)
    (canonical_pick bound ha (canonical_pick bound hb hc))
  intro d
  cases bound with
  | join => simp only [Bound.pick, mem_union, or_assoc]
  | meet => simp only [Bound.pick, mem_inter, and_assoc]

/-- What is absorbed by a set is absorbed by whatever absorbs that set. -/
theorem pick_trans (bound : Bound) (ha : a.Canonical) (hb : b.Canonical) (hc : c.Canonical)
    (first : bound.pick (a.union b) (a.inter b) = b)
    (second : bound.pick (b.union c) (b.inter c) = c) :
    bound.pick (a.union c) (a.inter c) = c := by
  have assoc := pick_assoc bound ha hb hc
  rw [first, second] at assoc
  exact assoc.symm

/-- The dual bound of a bound and one of its operands is the operand. -/
theorem pick_dual (bound : Bound) (ha : a.Canonical) (hb : b.Canonical) :
    bound.dual.pick ((bound.pick (a.union b) (a.inter b)).union a)
        ((bound.pick (a.union b) (a.inter b)).inter a) = a := by
  apply ext_of_canonical (canonical_pick bound.dual (canonical_pick bound ha hb) ha) ha
  intro c
  cases bound with
  | join =>
      simp only [Bound.dual, Bound.pick, mem_union, mem_inter]
      tauto
  | meet =>
      simp only [Bound.dual, Bound.pick, mem_union, mem_inter]
      tauto

/-- Taking one of the operands into a bound again changes nothing. -/
theorem pick_again (bound : Bound) (ha : a.Canonical) (hb : b.Canonical) :
    bound.pick ((bound.pick (a.union b) (a.inter b)).union a)
        ((bound.pick (a.union b) (a.inter b)).inter a) =
      bound.pick (a.union b) (a.inter b) := by
  have canonical := canonical_pick bound ha hb
  apply ext_of_canonical (canonical_pick bound canonical ha) canonical
  intro c
  cases bound with
  | join =>
      simp only [Bound.pick, mem_union]
      tauto
  | meet =>
      simp only [Bound.pick, mem_inter]
      tauto

end ClassSet

/-!
### Sets of primitives
-/

namespace Primitives

theorem pick_comm (bound : Bound) (p q : Primitives) :
    bound.pick (p.union q) (p.inter q) = bound.pick (q.union p) (q.inter p) := by
  cases bound with
  | join => simp only [Bound.pick, union, Bool.or_comm]
  | meet => simp only [Bound.pick, inter, Bool.and_comm]

theorem pick_self (bound : Bound) (p : Primitives) : bound.pick (p.union p) (p.inter p) = p := by
  cases bound with
  | join => simp only [Bound.pick, union, Bool.or_self]
  | meet => simp only [Bound.pick, inter, Bool.and_self]

theorem pick_assoc (bound : Bound) (p q r : Primitives) :
    bound.pick ((bound.pick (p.union q) (p.inter q)).union r)
        ((bound.pick (p.union q) (p.inter q)).inter r) =
      bound.pick (p.union (bound.pick (q.union r) (q.inter r)))
        (p.inter (bound.pick (q.union r) (q.inter r))) := by
  cases bound with
  | join => simp only [Bound.pick, union, Bool.or_assoc]
  | meet => simp only [Bound.pick, inter, Bool.and_assoc]

theorem pick_trans (bound : Bound) {p q r : Primitives}
    (first : bound.pick (p.union q) (p.inter q) = q)
    (second : bound.pick (q.union r) (q.inter r) = r) :
    bound.pick (p.union r) (p.inter r) = r := by
  have assoc := pick_assoc bound p q r
  rw [first, second] at assoc
  exact assoc.symm

theorem pick_dual (bound : Bound) (p q : Primitives) :
    bound.dual.pick ((bound.pick (p.union q) (p.inter q)).union p)
        ((bound.pick (p.union q) (p.inter q)).inter p) = p := by
  have upper : ∀ x y : Bool, ((x || y) && x) = x := by decide
  have lower : ∀ x y : Bool, (x && y || x) = x := by decide
  cases bound with
  | join => simp only [Bound.dual, Bound.pick, union, inter, upper]
  | meet => simp only [Bound.dual, Bound.pick, union, inter, lower]

theorem pick_again (bound : Bound) (p q : Primitives) :
    bound.pick ((bound.pick (p.union q) (p.inter q)).union p)
        ((bound.pick (p.union q) (p.inter q)).inter p) =
      bound.pick (p.union q) (p.inter q) := by
  have upper : ∀ x y : Bool, (x || y || x) = (x || y) := by decide
  have lower : ∀ x y : Bool, (x && y && x) = (x && y) := by decide
  cases bound with
  | join => simp only [Bound.pick, union, upper]
  | meet => simp only [Bound.pick, inter, lower]

end Primitives

end SignatureLattice
