/-
Module: SignatureLattice.Proofs.Overlap
Purpose: Types that have a value in common. The lower bound of two types is the type of no value
  unless they overlap, and that shows in their outermost parts: callable parts always have a lower
  bound, whatever is nested in them. A type with a value overlaps what it gives way to in either
  bound, and every upper bound that it goes into.
Main exports: Ty.overlaps, Ty.isBottom_of_meet, Ty.overlaps_comm, Ty.overlaps_of_join,
  Ty.bottom_of_join, Slot.Overlap, Slot.Concur, Slot.GivesWay.concur, Slot.Pooled.overlap
-/
import SignatureLattice.Proofs.Fitting

namespace SignatureLattice

open Outcome

/-!
### Types
-/

namespace Ty

/-- Whether some value belongs to both types. The top type and the unknown type leave the other one
    as it is. Two unions have a value in common when they share a primitive or a class, or when
    there are functions in both. -/
def overlaps : Ty → Ty → Bool
  | .union p c f, .union q d g =>
      !(p.inter q).isEmpty || !(c.inter d).isEmpty || (f.isSome && g.isSome)
  | .union p c f, _ => !(union p c f).isBottom
  | _, b => !b.isBottom

variable {a b c : Ty}

theorem isBottom_union (p : Primitives) (classes : ClassSet) (f : Callable) :
    (union p classes f).isBottom = (p.isEmpty && classes.isEmpty && f.isNone) := by
  cases classes <;> cases f <;> simp [isBottom]

theorem isBottom_iff {t : Ty} : t.isBottom = true ↔ t = .bottom := by
  cases t with
  | top => simp [isBottom, bottom]
  | unknown => simp [isBottom, bottom]
  | union p classes f =>
      rw [isBottom_union]
      simp [bottom, Primitives.isEmpty, and_assoc]

/-- The lower bound of two types is the type of no value just when they do not overlap. -/
theorem isBottom_of_meet (h : Ty.combine .meet a b = .ok c) : c.isBottom = !a.overlaps b := by
  match a, b with
  | .top, b =>
      obtain rfl : b = c := by simpa [Ty.combine, Bound.pick] using h
      simp [overlaps]
  | .unknown, .top | .unknown, .unknown =>
      obtain rfl : Ty.unknown = c := by simpa [Ty.combine, Bound.pick] using h
      rfl
  | .unknown, .union q classes g =>
      obtain rfl : Ty.union q classes g = c := by simpa [Ty.combine, Bound.pick] using h
      simp [overlaps]
  | .union p classes f, .top | .union p classes f, .unknown =>
      obtain rfl : Ty.union p classes f = c := by simpa [Ty.combine, Bound.pick] using h
      simp [overlaps]
  | .union p classes f, .union q classes' g =>
      rw [Ty.combine_union, map_eq_ok] at h
      obtain ⟨k, hk, rfl⟩ := h
      -- Two callable parts have a lower bound whatever they are, and it is never absent.
      have callable : k.isNone = !(f.isSome && g.isSome) := by
        rw [← Option.not_isSome, Callable.isSome_of_combine hk]
        rfl
      rw [isBottom_union, callable]
      simp [overlaps, Bound.pick, Bool.not_or]

theorem overlaps_comm (a b : Ty) : a.overlaps b = b.overlaps a := by
  have primitives : ∀ p q : Primitives, p.inter q = q.inter p := fun p q =>
    Primitives.pick_comm .meet p q
  have classes : ∀ l m : ClassSet, (l.inter m).isEmpty = (m.inter l).isEmpty := by
    intro l m
    rw [Bool.eq_iff_iff, List.isEmpty_iff, List.isEmpty_iff, List.eq_nil_iff_forall_not_mem,
      List.eq_nil_iff_forall_not_mem]
    simp only [ClassSet.mem_inter, and_comm]
  cases a with
  | top => cases b <;> rfl
  | unknown => cases b <;> rfl
  | union p l f =>
      cases b with
      | top => rfl
      | unknown => rfl
      | union q m g => rw [overlaps, overlaps, primitives p q, classes l m, Bool.and_comm]

theorem isBottom_eq_false (h : a ≠ .bottom) : a.isBottom = false :=
  Bool.eq_false_iff.2 fun bottom => h (isBottom_iff.1 bottom)

/-- The extreme types overlap every type that has a value. -/
theorem overlaps_of_extreme (extreme : b.isExtreme = true) (inhabited : a ≠ .bottom) :
    a.overlaps b = true := by
  have some_value := isBottom_eq_false inhabited
  cases b with
  | top => cases a <;> simp_all [overlaps, isBottom]
  | unknown => cases a <;> simp_all [overlaps, isBottom]
  | union q classes g => simp [isExtreme, isTop, isUnknown] at extreme

/-- A union with a value overlaps every union that has its outermost parts. -/
theorem overlaps_of_subset {p q : Primitives} {l m : ClassSet} {f g : Callable}
    (primitives : q.inter p = p) (classes : ∀ c ∈ l, c ∈ m) (callable : f.isSome → g.isSome)
    (inhabited : union p l f ≠ .bottom) : (union p l f).overlaps (union q m g) = true := by
  have commuted : p.inter q = p := (Primitives.pick_comm .meet p q).trans primitives
  have shared : l.inter m = l := List.filter_eq_self.2 fun c hc => by simpa using classes c hc
  have functions : (f.isSome && g.isSome) = !f.isNone := by
    cases f with
    | none => rfl
    | some f => simpa using callable rfl
  have silent := isBottom_eq_false inhabited
  rw [isBottom_union] at silent
  rw [overlaps, commuted, shared, functions, ← Bool.not_and, ← Bool.not_and, silent]
  rfl

theorem overlaps_self (inhabited : a ≠ .bottom) : a.overlaps a = true := by
  cases a with
  | top => rfl
  | unknown => rfl
  | union p l f =>
      exact overlaps_of_subset (Primitives.pick_self .meet p) (fun _ hc => hc) id inhabited

/-- Equal unions have the same primitives and classes, and functions belong to both or neither. -/
theorem same_union {p q : Primitives} {l m : ClassSet} {f g : Callable}
    (h : (union p l f).same (union q m g) = true) : p = q ∧ l = m ∧ f.isSome = g.isSome := by
  simp only [same, Bool.and_eq_true, beq_iff_eq] at h
  obtain ⟨⟨rfl, rfl⟩, callable⟩ := h
  refine ⟨rfl, rfl, ?_⟩
  cases f <;> cases g <;> simp_all [Callable.same]

theorem isBottom_congr (h : a.same b = true) : a.isBottom = b.isBottom := by
  rw [same_iff] at h
  rw [Bool.eq_iff_iff, isBottom_iff, isBottom_iff, ← same_bottom_iff, ← same_bottom_iff, same_iff,
    same_iff, h]

/-- Equal types overlap the same types. -/
theorem overlaps_congr (h : b.same c = true) : a.overlaps b = a.overlaps c := by
  have silent := isBottom_congr h
  match a, b, c with
  | .top, _, _ | .unknown, _, _ => simp [overlaps, silent]
  | .union .., .top, .top | .union .., .unknown, .unknown => rfl
  | .union .., .union .., .union .. =>
      obtain ⟨rfl, rfl, present⟩ := same_union h
      rw [overlaps, overlaps, present]
  | .union .., .top, .unknown | .union .., .top, .union .. | .union .., .unknown, .top
  | .union .., .unknown, .union .. | .union .., .union .., .top | .union .., .union .., .unknown =>
      simp [same] at h

/-- Where an operand is extreme, so is the upper bound. -/
theorem isExtreme_of_join (h : Ty.combine .join a b = .ok c)
    (extreme : (a.isExtreme || b.isExtreme) = true) : c.isExtreme = true := by
  cases a <;> cases b <;> simp [isExtreme, isTop, isUnknown] at extreme <;>
    simp [Ty.combine, Bound.pick] at h <;> exact h ▸ rfl

/-- Both operands of an upper bound overlap it, if they have a value. -/
theorem overlaps_of_join (h : Ty.combine .join a b = .ok c) :
    (a ≠ .bottom → a.overlaps c = true) ∧ (b ≠ .bottom → b.overlaps c = true) := by
  by_cases extreme : (a.isExtreme || b.isExtreme) = true
  · have above := isExtreme_of_join h extreme
    exact ⟨overlaps_of_extreme above, overlaps_of_extreme above⟩
  · match a, b with
    | .union p l f, .union q m g =>
        rw [Ty.combine_union, map_eq_ok] at h
        obtain ⟨k, hk, rfl⟩ := h
        have functions : (f.isSome → k.isSome) ∧ (g.isSome → k.isSome) := by
          have present : k.isSome = (f.isSome || g.isSome) := Callable.isSome_of_combine hk
          rw [present, Bool.or_eq_true]
          exact ⟨.inl, .inr⟩
        have right : (p.union q).inter q = q := by
          rw [show p.union q = q.union p from Primitives.pick_comm .join p q]
          exact Primitives.pick_dual .join q p
        exact ⟨overlaps_of_subset (Primitives.pick_dual .join p q)
            (fun c hc => ClassSet.mem_union.2 (.inl hc)) functions.1,
          overlaps_of_subset right (fun c hc => ClassSet.mem_union.2 (.inr hc)) functions.2⟩
    | .top, _ | .unknown, _ | .union .., .top | .union .., .unknown =>
        simp [isExtreme, isTop, isUnknown] at extreme

/-- The type of no value is the upper bound of no other types, as each operand overlaps the upper
    bound if it has a value. -/
theorem bottom_of_join (h : Ty.combine .join a b = .ok .bottom) : a = .bottom ∧ b = .bottom := by
  have alone : ∀ c : Ty, c.overlaps .bottom = false := fun c => by
    rw [Ty.overlaps_comm]
    cases c <;> rfl
  have inhabited : ∀ {c : Ty}, (c ≠ .bottom → c.overlaps .bottom = true) → c = .bottom :=
    fun {c} overlap => by_contra fun some_value => by simpa [alone c] using overlap some_value
  exact (Ty.overlaps_of_join h).imp inhabited inhabited

end Ty

/-!
### Slots
-/

/-- What two slots hold overlaps, unless one of them is empty. -/
def Slot.Overlap (x y : Slot) : Prop :=
  ∀ a b, x = some a → y = some b → a.overlaps b = true

theorem Slot.Overlap.symm {x y : Slot} (h : Overlap x y) : Overlap y x := fun b a hb ha =>
  (b.overlaps_comm a).trans (h a b ha hb)

/-- What two slots hold overlaps, unless one of them is empty or holds the type of no value. -/
def Slot.Concur (x y : Slot) : Prop :=
  x ≠ some .bottom → y ≠ some .bottom → Overlap x y

theorem Slot.Concur.symm {x y : Slot} (h : Concur x y) : Concur y x := fun hy hx => (h hx hy).symm

namespace Slot

variable {bound : Bound} {x y z : Slot}

theorem concur_of_same (h : Slot.same x y = true) : Concur x y := by
  rintro hx - a b rfl rfl
  have inhabited : a ≠ .bottom := mt (congrArg some) hx
  rw [← Ty.overlaps_congr (by simpa [Slot.same] using h)]
  exact Ty.overlaps_self inhabited

/-- What gives way in either bound concurs with what it gives way to. -/
theorem GivesWay.concur (h : GivesWay bound x y) : Concur x y := by
  rintro hx hy a b rfl rfl
  obtain ⟨c, hc, same⟩ := h a b rfl rfl
  cases bound with
  | join =>
      have inhabited : a ≠ .bottom := mt (congrArg some) hx
      rw [← Ty.overlaps_congr same]
      exact (Ty.overlaps_of_join hc).1 inhabited
  | meet =>
      -- The lower bound equals the right type, so it is no more the type of no value than that.
      have inhabited : b ≠ .bottom := mt (congrArg some) hy
      have silent := Ty.isBottom_of_meet hc
      rw [Ty.isBottom_congr same, Ty.isBottom_eq_false inhabited] at silent
      simpa using silent

/-- Reading an unknown type as that of no value hides no clash, as the unknown type overlaps every
    type that has a value. -/
theorem concur_unknownToBottom (h : Concur x (y.map Ty.unknownToBottom)) : Concur x y := by
  cases y with
  | none => exact h
  | some b =>
      by_cases unknown : b = .unknown
      · rintro hx - a _ rfl ⟨⟩
        subst unknown
        exact Ty.overlaps_of_extreme rfl (mt (congrArg some) hx)
      · rwa [Option.map_some, Ty.unknownToBottom_of_ne unknown] at h

/-- Each of two slots overlaps what they hold between them. -/
theorem Pooled.overlap (h : Pooled .join x y z) :
    (x ≠ some .bottom → Overlap x z) ∧ (y ≠ some .bottom → Overlap y z) := by
  have alone : ∀ a : Ty, some a ≠ some .bottom → Overlap (some a) (some a) := by
    rintro a inhabited _ _ ⟨⟩ ⟨⟩
    exact Ty.overlaps_self (mt (congrArg some) inhabited)
  have absent : ∀ z, Overlap none z := fun _ _ _ nothing => nomatch nothing
  cases h with
  | neither => exact ⟨fun _ => absent _, fun _ => absent _⟩
  | left a => exact ⟨alone a, fun _ => absent _⟩
  | right b => exact ⟨fun _ => absent _, alone b⟩
  | both h =>
      rw [combine_some] at h
      obtain ⟨left, right⟩ := Ty.overlaps_of_join h
      constructor
      · rintro inhabited _ _ ⟨⟩ ⟨⟩
        exact left (mt (congrArg some) inhabited)
      · rintro inhabited _ _ ⟨⟩ ⟨⟩
        exact right (mt (congrArg some) inhabited)

end Slot

end SignatureLattice
