/-
Module: SignatureLattice.Proofs.Layouts
Purpose: How a type is laid out: a word of flags, a list of classes and a callable part, of which
  nothing is assumed beforehand. The layouts of types are the legal ones. Bounds of layouts are
  computed on words digit by digit and on class lists in one pass through both, and they are the
  bounds of types as long as the class lists are canonical.
Main exports: ClassSet.mergeUnion_eq, ClassSet.mergeInter_eq, Layout, Layout.Legal, Layout.combine,
  Ty.layout, Layout.legal_iff, Ty.layout_combine
-/
import Mathlib.Data.Nat.Bitwise
import SignatureLattice.Proofs.Merging
import SignatureLattice.Proofs.Sets

namespace SignatureLattice

open Outcome

/-!
### Class lists in one pass

The heads of two canonical lists say which class comes first in both, so union and intersection need
not look any class up.
-/

namespace ClassSet

/-- The union of two class lists: of the two heads, the one that comes first goes first. -/
def mergeUnion : ClassSet → ClassSet → ClassSet
  | [], b => b
  | c :: a, [] => c :: a
  | c :: a, d :: b =>
      if c < d then c :: mergeUnion a (d :: b)
      else if d < c then d :: mergeUnion (c :: a) b
      else c :: mergeUnion a b
termination_by a b => a.length + b.length

/-- The intersection of two class lists: of two different heads, the one that comes first is in one
    list only. -/
def mergeInter : ClassSet → ClassSet → ClassSet
  | [], _ => []
  | _ :: _, [] => []
  | c :: a, d :: b =>
      if c < d then mergeInter a (d :: b)
      else if d < c then mergeInter (c :: a) b
      else c :: mergeInter a b
termination_by a b => a.length + b.length

theorem eq_of_not_lt {c d : NamedClass} (hcd : ¬ c < d) (hdc : ¬ d < c) : c = d := by
  by_contra different
  exact (NamedClass.lt_or_lt_of_ne different).elim hcd hdc

theorem mem_mergeUnion {a b : ClassSet} {c : NamedClass} :
    c ∈ mergeUnion a b ↔ c ∈ a ∨ c ∈ b := by
  fun_induction mergeUnion a b with
  | case1 b => simp
  | case2 d a => simp
  | case3 d a e b first ih => rw [List.mem_cons, ih, List.mem_cons (l := a), or_assoc]
  | case4 d a e b _ first ih => rw [List.mem_cons, ih, List.mem_cons (l := b), or_left_comm]
  | case5 d a e b left right ih =>
      obtain rfl := eq_of_not_lt left right
      simp only [List.mem_cons, ih]
      tauto

/-- What comes before the head of a canonical list comes before all of the list. -/
theorem lt_of_lt_head {c d : NamedClass} {b : ClassSet} (hb : Canonical (d :: b)) (first : c < d) :
    ∀ e ∈ d :: b, c < e := by
  intro e he
  rcases List.mem_cons.1 he with rfl | he
  · exact first
  · exact NamedClass.lt_trans first ((List.pairwise_cons.1 hb).1 e he)

theorem canonical_mergeUnion {a b : ClassSet} (ha : a.Canonical) (hb : b.Canonical) :
    (mergeUnion a b).Canonical := by
  fun_induction mergeUnion a b with
  | case1 b => exact hb
  | case2 d a => exact ha
  | case3 d a e b first ih =>
      obtain ⟨head, tail⟩ := List.pairwise_cons.1 ha
      refine List.pairwise_cons.2 ⟨fun c hc => ?_, ih tail hb⟩
      exact (mem_mergeUnion.1 hc).elim (head c) (lt_of_lt_head hb first c)
  | case4 d a e b _ first ih =>
      obtain ⟨head, tail⟩ := List.pairwise_cons.1 hb
      refine List.pairwise_cons.2 ⟨fun c hc => ?_, ih ha tail⟩
      exact (mem_mergeUnion.1 hc).elim (lt_of_lt_head ha first c) (head c)
  | case5 d a e b left right ih =>
      obtain rfl := eq_of_not_lt left right
      obtain ⟨head, tail⟩ := List.pairwise_cons.1 ha
      obtain ⟨head', tail'⟩ := List.pairwise_cons.1 hb
      refine List.pairwise_cons.2 ⟨fun c hc => ?_, ih tail tail'⟩
      exact (mem_mergeUnion.1 hc).elim (head c) (head' c)

/-- One pass through two canonical lists makes their union. -/
theorem mergeUnion_eq {a b : ClassSet} (ha : a.Canonical) (hb : b.Canonical) :
    mergeUnion a b = a.union b :=
  ext_of_canonical (canonical_mergeUnion ha hb) (canonical_union hb) fun _ => by
    rw [mem_mergeUnion, mem_union]

theorem not_mem_of_lt_head {c d : NamedClass} {b : ClassSet} (hb : Canonical (d :: b))
    (first : c < d) : c ∉ d :: b :=
  fun hc => c.lt_irrefl (lt_of_lt_head hb first c hc)

theorem inter_cons_of_not_mem {a b : ClassSet} {c : NamedClass} (h : c ∉ a) :
    a.inter (c :: b) = a.inter b := by
  apply List.filter_congr
  intro d hd
  have different : d ≠ c := fun eq => h (eq ▸ hd)
  simp [different]

/-- One pass through two canonical lists makes their intersection. -/
theorem mergeInter_eq {a b : ClassSet} (ha : a.Canonical) (hb : b.Canonical) :
    mergeInter a b = a.inter b := by
  fun_induction mergeInter a b with
  | case1 b => rfl
  | case2 d a => simp [inter]
  | case3 d a e b first ih =>
      have absent : d ∉ e :: b := not_mem_of_lt_head hb first
      rw [ih (List.pairwise_cons.1 ha).2 hb, inter, inter,
        List.filter_cons_of_neg (by simpa using absent)]
  | case4 d a e b _ first ih =>
      rw [ih ha (List.pairwise_cons.1 hb).2,
        inter_cons_of_not_mem (not_mem_of_lt_head ha first)]
  | case5 d a e b left right ih =>
      obtain rfl := eq_of_not_lt left right
      obtain ⟨head, tail⟩ := List.pairwise_cons.1 ha
      have once : d ∉ a := fun hd => d.lt_irrefl (head d hd)
      rw [ih tail (List.pairwise_cons.1 hb).2, ← inter_cons_of_not_mem (b := b) once, inter, inter,
        List.filter_cons_of_pos (by simp)]

end ClassSet

/-!
### Words of flags

Each primitive has a digit of its own, so the operations on sets are operations on words.
-/

namespace Primitives

theorem weight_eq_bit (p : Primitives) :
    p.weight = Nat.bit p.null (Nat.bit p.undefined (Nat.bit p.boolean (Nat.bit p.number
      (Nat.bit p.string 0)))) := by
  have digit : ∀ (b : Bool) (n : Nat), Nat.bit b n = 2 * n + b.toNat := by
    intro b n
    cases b <;> simp [Nat.bit]
  simp only [digit, weight]
  omega

theorem weight_union (p q : Primitives) : (p.union q).weight = p.weight ||| q.weight := by
  simp only [weight_eq_bit, Nat.lor_bit, union, Nat.or_zero]

theorem weight_inter (p q : Primitives) : (p.inter q).weight = p.weight &&& q.weight := by
  simp only [weight_eq_bit, Nat.land_bit, inter, Nat.and_zero]

theorem weight_lt (p : Primitives) : p.weight < 1 <<< 5 := by
  obtain ⟨a, b, c, d, e⟩ := p
  have ha := a.toNat_le
  have hb := b.toNat_le
  have hc := c.toNat_le
  have hd := d.toNat_le
  have he := e.toNat_le
  simp only [weight]
  omega

/-- Every word below the sixth digit is that of a set of primitives. -/
theorem exists_weight {n : Nat} (h : n < 1 <<< 5) : ∃ p : Primitives, p.weight = n := by
  have each : ∀ n < 32, Primitives.weight ⟨n.testBit 0, n.testBit 1, n.testBit 2, n.testBit 3,
      n.testBit 4⟩ = n := by decide
  exact ⟨_, each n h⟩

/-- No far digit of a set's word is set. -/
theorem testBit_weight (p : Primitives) {i : Nat} (h : 5 ≤ i) : p.weight.testBit i = false :=
  Nat.testBit_lt_two_pow
    (Nat.lt_of_lt_of_le p.weight_lt (Nat.pow_le_pow_right Nat.two_pos h))

/-- Nothing of a set's word is lost by looking at the first five digits only. -/
theorem weight_and_mask (p : Primitives) : p.weight &&& 31 = p.weight := by
  rw [show 31 = 2 ^ 5 - 1 from rfl, Nat.and_two_pow_sub_one_eq_mod]
  exact Nat.mod_eq_of_lt p.weight_lt

end Primitives

/-!
### Layouts
-/

/-- The fields of a type, with no promise about what is in them. -/
@[ext] structure Layout where
  word : Nat
  classes : ClassSet
  callable : Callable

namespace Layout

/-- The word of the top type is the thirtieth power of two. -/
def top : Layout := ⟨1 <<< 30, [], none⟩

/-- The word of the unknown type is the next power of two. -/
def unknown : Layout := ⟨1 <<< 31, [], none⟩

def isTop (r : Layout) : Bool :=
  r.word.testBit 30

def isUnknown (r : Layout) : Bool :=
  r.word.testBit 31

/-- A layout is legal when its word is that of the top type, that of the unknown type or that of a
    set of primitives, and there is nothing in it but the word if the word has a flag of the top or
    the unknown type. -/
structure Legal (r : Layout) : Prop where
  word : r.word = 1 <<< 30 ∨ r.word = 1 <<< 31 ∨ r.word < 1 <<< 5
  alone : r.isTop ∨ r.isUnknown → r.classes = [] ∧ r.callable = none

/-- A bound of two layouts. The flags of the top type count first, then those of the unknown type,
    and all other layouts are bounded field by field. -/
def combine (bound : Bound) (r s : Layout) : Except Violation Layout :=
  match bound with
  | .join =>
      if r.isTop || s.isTop then .ok top
      else if r.isUnknown || s.isUnknown then .ok unknown
      else (⟨r.word ||| s.word, r.classes.mergeUnion s.classes, ·⟩)
        <$> Callable.join r.callable s.callable
  | .meet =>
      if r.isTop then .ok s
      else if s.isTop then .ok r
      else if r.isUnknown then .ok s
      else if s.isUnknown then .ok r
      else (⟨(r.word &&& s.word) &&& 31, r.classes.mergeInter s.classes, ·⟩)
        <$> Callable.meet r.callable s.callable

end Layout

namespace Ty

/-- The layout of a type. -/
def layout (t : Ty) : Layout :=
  ⟨t.weight, t.classes, t.callable?⟩

theorem layout_top : Layout.top = Ty.top.layout := rfl

theorem layout_unknown : Layout.unknown = Ty.unknown.layout := rfl

theorem layout_union (p : Primitives) (c : ClassSet) (f : Callable) :
    (Ty.union p c f).layout = ⟨p.weight, c, f⟩ := rfl

@[simp] theorem isTop_layout (t : Ty) : t.layout.isTop = t.isTop := by
  cases t with
  | top => rfl
  | unknown => rfl
  | union p c f => exact p.testBit_weight (by decide)

@[simp] theorem isUnknown_layout (t : Ty) : t.layout.isUnknown = t.isUnknown := by
  cases t with
  | top => rfl
  | unknown => rfl
  | union p c f => exact p.testBit_weight (by decide)

theorem layout_legal (t : Ty) : t.layout.Legal where
  word := by
    cases t with
    | top => exact .inl rfl
    | unknown => exact .inr (.inl rfl)
    | union p c f => exact .inr (.inr p.weight_lt)
  alone extreme := by
    rw [isTop_layout, isUnknown_layout] at extreme
    cases t with
    | top => exact ⟨rfl, rfl⟩
    | unknown => exact ⟨rfl, rfl⟩
    | union p c f => simp [isTop, isUnknown] at extreme

end Ty

/-- The legal layouts are the layouts of types. -/
theorem Layout.legal_iff {r : Layout} : r.Legal ↔ ∃ t : Ty, t.layout = r := by
  constructor
  · intro legal
    obtain ⟨word, classes, callable⟩ := r
    rcases legal.word with rfl | rfl | small
    · obtain ⟨rfl, rfl⟩ := legal.alone (.inl (Nat.testBit_two_pow_self (n := 30)))
      exact ⟨.top, rfl⟩
    · obtain ⟨rfl, rfl⟩ := legal.alone (.inr (Nat.testBit_two_pow_self (n := 31)))
      exact ⟨.unknown, rfl⟩
    · obtain ⟨p, rfl⟩ := Primitives.exists_weight small
      exact ⟨.union p classes callable, rfl⟩
  · rintro ⟨t, rfl⟩
    exact t.layout_legal

/-- On types with canonical class sets, the bound of the layouts is the layout of the bound. -/
theorem Ty.layout_combine (bound : Bound) {a b : Ty} (ha : a.classes.Canonical)
    (hb : b.classes.Canonical) :
    Layout.combine bound a.layout b.layout = Ty.layout <$> Ty.combine bound a b := by
  induction a, b using Ty.pair_induction with
  | extreme a b extreme =>
      cases a <;> cases b <;> cases bound <;>
        simp_all [Layout.combine, Ty.combine, Bound.pick, Ty.isExtreme, Ty.isTop, Ty.isUnknown,
          Ty.layout_top, Ty.layout_unknown]
  | union p c f q d g =>
      have union : c.mergeUnion d = c.union d := ClassSet.mergeUnion_eq ha hb
      have inter : c.mergeInter d = c.inter d := ClassSet.mergeInter_eq ha hb
      rw [Ty.combine_union]
      cases bound with
      | join =>
          simp only [Layout.combine, Ty.isTop_layout, Ty.isUnknown_layout, Ty.isTop, Ty.isUnknown,
            Bool.or_self, Bool.false_eq_true, if_false]
          simp only [Ty.layout_union, union, ← Primitives.weight_union]
          rw [Callable.join]
          cases Callable.combine .join f g <;> rfl
      | meet =>
          simp only [Layout.combine, Ty.isTop_layout, Ty.isUnknown_layout, Ty.isTop, Ty.isUnknown,
            Bool.false_eq_true, if_false]
          simp only [Ty.layout_union, inter, ← Primitives.weight_inter, Primitives.weight_and_mask]
          rw [Callable.meet]
          cases Callable.combine .meet f g <;> rfl

end SignatureLattice
