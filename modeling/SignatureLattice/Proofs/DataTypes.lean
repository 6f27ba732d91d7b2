/-
Module: SignatureLattice.Proofs.DataTypes
Purpose: The types without a callable part form a bounded distributive lattice. Such a type means the
  top element, the element below it, or a set of primitives together with a set of classes. Types
  are equal just when they mean the same, and bounds of types mean the bounds of what the types
  mean, so the laws of the lattice of meanings are laws of types.
Main exports: Primitive, Primitives.members, Meaning, Ty.meaning, DataTy, DataTy.bound,
  DataTy.meaning_bound, DataTy.meaning_injective, Session.exists_dataTy, dataTypes_distributive
-/
import Mathlib.Data.Finset.Dedup
import Mathlib.Data.Finset.Filter
import Mathlib.Data.Finset.Insert
import Mathlib.Data.Finset.Lattice.Basic
import Mathlib.Data.Finset.SDiff
import Mathlib.Order.WithBot
import SignatureLattice.Proofs.Exact
import SignatureLattice.Proofs.Representation

namespace SignatureLattice

/-!
### Meanings
-/

/-- The primitive types one by one. -/
inductive Primitive where
  | null
  | undefined
  | boolean
  | number
  | string
deriving DecidableEq, Repr, Inhabited

/-- Whether a primitive belongs to a set. -/
def Primitives.has (p : Primitives) : Primitive → Bool
  | .null => p.null
  | .undefined => p.undefined
  | .boolean => p.boolean
  | .number => p.number
  | .string => p.string

def Primitives.members (p : Primitives) : Finset Primitive :=
  ({.null, .undefined, .boolean, .number, .string} : Finset Primitive).filter fun x => p.has x

/-- The order of meanings: the top element, below it the meaning of the unknown type, and below that
    all pairs of a set of primitives and a set of classes, ordered by inclusion. -/
abbrev Meaning := WithTop (WithTop (Finset Primitive × Finset NamedClass))

def Meaning.unknown : Meaning :=
  ((⊤ : WithTop (Finset Primitive × Finset NamedClass)) : Meaning)

/-- The meaning that consists of the given primitives and classes. -/
def Meaning.sets (p : Finset Primitive) (c : Finset NamedClass) : Meaning :=
  (((p, c) : WithTop (Finset Primitive × Finset NamedClass)) : Meaning)

/-- What a type means, but for its callable part. -/
def Ty.meaning : Ty → Meaning
  | .top => ⊤
  | .unknown => .unknown
  | .union p c _ => .sets p.members c.toFinset

namespace Meaning

theorem unknown_lt_top : unknown < ⊤ := WithTop.coe_lt_top _

theorem sets_lt_unknown (p : Finset Primitive) (c : Finset NamedClass) : sets p c < unknown :=
  WithTop.coe_lt_coe.2 (WithTop.coe_lt_top _)

theorem sets_inj {p q : Finset Primitive} {c d : Finset NamedClass} :
    sets p c = sets q d ↔ p = q ∧ c = d := by
  simp [sets]

theorem sets_pick (bound : Bound) (p q : Finset Primitive) (c d : Finset NamedClass) :
    sets (bound.pick (p ⊔ q) (p ⊓ q)) (bound.pick (c ⊔ d) (c ⊓ d)) =
      bound.pick (sets p c ⊔ sets q d) (sets p c ⊓ sets q d) := by
  cases bound with
  | join => rfl
  | meet => rfl

end Meaning

@[simp] theorem Primitives.mem_members {p : Primitives} {x : Primitive} :
    x ∈ p.members ↔ p.has x = true := by
  cases x <;> simp [Primitives.members]

theorem Primitives.members_inj {p q : Primitives} : p.members = q.members ↔ p = q := by
  refine ⟨fun h => ?_, fun h => h ▸ rfl⟩
  have has : ∀ x, p.has x = q.has x := fun x =>
    Bool.eq_iff_iff.2 (by rw [← mem_members, h, mem_members])
  obtain ⟨a, b, c, d, e⟩ := p
  obtain ⟨a', b', c', d', e'⟩ := q
  simp [show a = a' from has .null, show b = b' from has .undefined, show c = c' from has .boolean,
    show d = d' from has .number, show e = e' from has .string]

theorem Primitives.members_pick (bound : Bound) (p q : Primitives) :
    (bound.pick (p.union q) (p.inter q)).members =
      bound.pick (p.members ⊔ q.members) (p.members ⊓ q.members) := by
  ext x
  cases bound with
  | join => cases x <;> simp [Bound.pick, Primitives.union, Primitives.has]
  | meet => cases x <;> simp [Bound.pick, Primitives.inter, Primitives.has]

/-- The type of no value means the least element. -/
theorem Ty.meaning_bottom : Ty.bottom.meaning = ⊥ := rfl

theorem ClassSet.toFinset_inj {c d : ClassSet} (hc : c.Canonical) (hd : d.Canonical) :
    c.toFinset = d.toFinset ↔ c = d := by
  refine ⟨fun h => ext_of_canonical hc hd fun x => ?_, fun h => h ▸ rfl⟩
  rw [← List.mem_toFinset, h, List.mem_toFinset]

theorem ClassSet.toFinset_pick (bound : Bound) (c d : ClassSet) :
    (bound.pick (c.union d) (c.inter d)).toFinset =
      bound.pick (c.toFinset ⊔ d.toFinset) (c.toFinset ⊓ d.toFinset) := by
  ext x
  cases bound with
  | join => simp [Bound.pick]
  | meet => simp [Bound.pick]

/-!
### Types without a callable part
-/

/-- A type without a callable part, with its classes in canonical order. -/
@[ext] structure DataTy where
  ty : Ty
  data : ty.callable? = none
  canonical : ty.classes.Canonical

namespace DataTy

def meaning (a : DataTy) : Meaning :=
  a.ty.meaning

theorem exact (a : DataTy) : a.ty.Exact := by
  obtain ⟨t, data, canonical⟩ := a
  cases t with
  | top => exact Ty.all_top ClassSet.canonical_nil
  | unknown => exact Ty.all_unknown ClassSet.canonical_nil
  | union p c f => exact Ty.all_union.2 ⟨canonical, fun f eq => nomatch data.symm.trans eq⟩

/-- Types without a callable part that mean the same are the same. -/
theorem meaning_injective : Function.Injective meaning := by
  rintro ⟨a, dataA, canonicalA⟩ ⟨b, dataB, canonicalB⟩ h
  have far : ∀ p c, Meaning.sets p c ≠ ⊤ := fun p c =>
    ((Meaning.sets_lt_unknown p c).trans Meaning.unknown_lt_top).ne
  have near : ∀ p c, Meaning.sets p c ≠ Meaning.unknown := fun p c =>
    (Meaning.sets_lt_unknown p c).ne
  suffices a = b by subst this; rfl
  match a, b with
  | .top, .top => rfl
  | .top, .unknown => exact absurd h Meaning.unknown_lt_top.ne'
  | .top, .union q d g => exact absurd h.symm (far _ _)
  | .unknown, .top => exact absurd h Meaning.unknown_lt_top.ne
  | .unknown, .unknown => rfl
  | .unknown, .union q d g => exact absurd h.symm (near _ _)
  | .union p c f, .top => exact absurd h (far _ _)
  | .union p c f, .unknown => exact absurd h (near _ _)
  | .union p c f, .union q d g =>
      obtain ⟨primitives, classes⟩ := Meaning.sets_inj.1 h
      obtain rfl := Primitives.members_inj.1 primitives
      obtain rfl := (ClassSet.toFinset_inj canonicalA canonicalB).1 classes
      obtain rfl : f = none := dataA
      obtain rfl : g = none := dataB
      rfl

/-- Types without a callable part are equal when they mean the same. -/
theorem same_iff_meaning {a b : DataTy} : a.ty.same b.ty = true ↔ a.meaning = b.meaning := by
  rw [Ty.same_iff, Ty.forget_of_exact a.exact, Ty.forget_of_exact b.exact]
  exact ⟨fun h => congrArg Ty.meaning h, fun h => congrArg DataTy.ty (meaning_injective h)⟩

end DataTy

/-!
### Bounds
-/

theorem Ty.callable?_bound (bound : Bound) {a b : Ty} (ha : a.Exact) (hb : b.Exact)
    (dataA : a.callable? = none) (dataB : b.callable? = none) :
    (Ty.bound bound a b).callable? = none := by
  induction a, b using Ty.pair_induction with
  | extreme a b extreme =>
      rcases Ty.combine_of_extreme extreme bound with eq | eq
      · rw [Ty.bound_eq_of_combine eq, dataA]
      · rw [Ty.bound_eq_of_combine eq, dataB]
  | union p c f q d g =>
      obtain rfl : f = none := dataA
      obtain rfl : g = none := dataB
      rw [Ty.bound_union bound ha hb]
      cases bound <;> rfl

namespace DataTy

/-- The bounds of two types without a callable part have none either. -/
def bound (bound : Bound) (a b : DataTy) : DataTy where
  ty := Ty.bound bound a.ty b.ty
  data := Ty.callable?_bound bound a.exact b.exact a.data b.data
  canonical := (Ty.exact_bound bound a.exact b.exact).1 _ (Ty.mem_parts_self _)

/-- Both bounds exist. -/
theorem combine_eq (bound : Bound) (a b : DataTy) :
    Slot.combine bound (some a.ty) (some b.ty) = .ok (a.bound bound b).ty := by
  rw [Slot.combine, Slot.both, Ty.combine_eq_bound bound a.exact.deeplyValid b.exact.deeplyValid]
  rfl

/-- The bounds of types mean the bounds of what the types mean. -/
theorem meaning_bound (bound : Bound) (a b : DataTy) :
    (a.bound bound b).meaning =
      bound.pick (a.meaning ⊔ b.meaning) (a.meaning ⊓ b.meaning) := by
  have exactA := a.exact
  have exactB := b.exact
  obtain ⟨a, dataA, canonicalA⟩ := a
  obtain ⟨b, dataB, canonicalB⟩ := b
  have below : ∀ p c, Meaning.sets p c ≤ Meaning.unknown := fun p c =>
    (Meaning.sets_lt_unknown p c).le
  simp only [meaning, DataTy.bound]
  match a, b with
  | .top, b => cases bound <;> simp [Bound.pick, Ty.meaning]
  | a, .top => cases bound <;> simp [Bound.pick, Ty.meaning]
  | .unknown, .unknown => cases bound <;> simp [Bound.pick, Ty.meaning]
  | .unknown, .union q d g => cases bound <;> simp [Bound.pick, Ty.meaning, below]
  | .union p c f, .unknown => cases bound <;> simp [Bound.pick, Ty.meaning, below]
  | .union p c f, .union q d g =>
      rw [Ty.bound_union bound exactA exactB, Ty.meaning, Ty.meaning, Ty.meaning,
        Primitives.members_pick, ClassSet.toFinset_pick, Meaning.sets_pick]

/-!
### The lattice
-/

instance : Max DataTy := ⟨DataTy.bound .join⟩

instance : Min DataTy := ⟨DataTy.bound .meet⟩

instance : LE DataTy := ⟨fun a b => a.meaning ≤ b.meaning⟩

instance : LT DataTy := ⟨fun a b => a.meaning < b.meaning⟩

theorem meaning_sup (a b : DataTy) : (a ⊔ b).meaning = a.meaning ⊔ b.meaning :=
  meaning_bound .join a b

theorem meaning_inf (a b : DataTy) : (a ⊓ b).meaning = a.meaning ⊓ b.meaning :=
  meaning_bound .meet a b

/-- Types without a callable part are ordered by what they mean, and their bounds are the bounds
    in that order. -/
instance : DistribLattice DataTy :=
  meaning_injective.distribLattice meaning Iff.rfl Iff.rfl meaning_sup meaning_inf

instance : BoundedOrder DataTy where
  top := ⟨.top, rfl, ClassSet.canonical_nil⟩
  le_top a := le_top (a := a.meaning)
  bot := ⟨.bottom, rfl, ClassSet.canonical_nil⟩
  bot_le _ := Ty.meaning_bottom.trans_le bot_le

end DataTy

/-- Every type without a callable part that a session makes is in the lattice. -/
theorem Session.exists_dataTy {requests : List Request} {t : Ty}
    (made : some t ∈ (Session.run requests).types) (data : t.callable? = none) :
    ∃ a : DataTy, a.ty = t := by
  have kept := (Session.wellFormed_run requests).types _ made t rfl
  exact ⟨⟨t, data, (Ty.wellFormed_iff.1 kept).1 t t.mem_parts_self⟩, rfl⟩

/-- The types without a callable part that sessions make form a bounded distributive lattice, in
    which equality of types is equality of meanings and the bounds are those of the meanings. -/
theorem dataTypes_distributive :
    (∀ requests t, some t ∈ (Session.run requests).types → t.callable? = none →
      ∃ a : DataTy, a.ty = t) ∧
    (∀ a b : DataTy, a.ty.same b.ty = true ↔ a.meaning = b.meaning) ∧
    (∀ a b : DataTy, Slot.join (some a.ty) (some b.ty) = .ok (a ⊔ b).ty ∧
      (a ⊔ b).meaning = a.meaning ⊔ b.meaning) ∧
    (∀ a b : DataTy, Slot.meet (some a.ty) (some b.ty) = .ok (a ⊓ b).ty ∧
      (a ⊓ b).meaning = a.meaning ⊓ b.meaning) ∧
    (∀ a b c : DataTy, a ⊔ b ⊔ c = a ⊔ (b ⊔ c) ∧ a ⊓ b ⊓ c = a ⊓ (b ⊓ c)) ∧
    (∀ a b : DataTy, a ⊔ b = b ⊔ a ∧ a ⊓ b = b ⊓ a) ∧
    (∀ a : DataTy, a ⊔ a = a ∧ a ⊓ a = a) ∧
    (∀ a b : DataTy, a ⊔ a ⊓ b = a ∧ a ⊓ (a ⊔ b) = a) ∧
    (∀ a b c : DataTy, a ⊓ (b ⊔ c) = a ⊓ b ⊔ a ⊓ c ∧ a ⊔ b ⊓ c = (a ⊔ b) ⊓ (a ⊔ c)) ∧
    (⊤ : DataTy).ty = .top ∧ (⊥ : DataTy).ty = .bottom ∧
    ∀ a : DataTy, a ⊔ ⊤ = ⊤ ∧ a ⊓ ⊤ = a ∧ a ⊔ ⊥ = a ∧ a ⊓ ⊥ = ⊥ := by
  refine ⟨fun _ _ => Session.exists_dataTy, fun _ _ => DataTy.same_iff_meaning, fun a b => ?_,
    fun a b => ?_, fun a b c => ?_, fun a b => ?_, fun a => ?_, fun a b => ?_, fun a b c => ?_,
    rfl, rfl, fun a => ?_⟩
  · exact ⟨a.combine_eq .join b, DataTy.meaning_sup a b⟩
  · exact ⟨a.combine_eq .meet b, DataTy.meaning_inf a b⟩
  · exact ⟨sup_assoc a b c, inf_assoc a b c⟩
  · exact ⟨sup_comm a b, inf_comm a b⟩
  · exact ⟨sup_idem a, inf_idem a⟩
  · exact ⟨sup_inf_self, inf_sup_self⟩
  · exact ⟨inf_sup_left a b c, sup_inf_left a b c⟩
  · exact ⟨sup_top_eq a, inf_top_eq a, sup_bot_eq a, inf_bot_eq a⟩

/-- Two classes that share their name are told apart, and are listed in the order of declaration. -/
example : Slot.join (some (.instanceOf ⟨"A", 1⟩)) (some (.instanceOf ⟨"A", 0⟩)) =
    .ok (.union {} [⟨"A", 0⟩, ⟨"A", 1⟩] none) := by
  cbv

end SignatureLattice
