/-
Module: SignatureLattice.Proofs.Extent
Purpose: The extent of types and signatures: how deep callables are nested in them, how many formals
  the nested signatures have, and of which classes instances belong to them. No operation goes
  beyond the extent of its operands, so no expression goes beyond the extent of what it is made of.
Main exports: Ty.depth, Signature.depth, Ty.depth_of_combine, Inherited.extent, Stock,
  Signature.BoundedBy, Ty.BoundedBy, SignatureTerm.DrawnFrom, TypeTerm.DrawnFrom,
  SignatureTerm.boundedBy_of_eval, TypeTerm.boundedBy_of_eval
-/
import Mathlib.Data.List.MinMax
import SignatureLattice.Proofs.Regularity
import SignatureLattice.Proofs.Totality

namespace SignatureLattice

open Outcome

/-!
### Depth
-/

mutual

/-- How deep callables are nested in a type. A type without a callable part has depth zero. -/
def Ty.depth (t : Ty) : Nat :=
  match t with
  | .top => 0
  | .unknown => 0
  | .union _ _ callable => Callable.depth callable
termination_by structural t

def Callable.depth (callable : Callable) : Nat :=
  match callable with
  | none => 0
  | some f => f.depth
termination_by structural callable

/-- How deep callables are nested in a signature, which is a callable itself. -/
def Signature.depth (f : Signature) : Nat :=
  match f with
  | .top _ => 1
  | .shaped s => s.depth
termination_by structural f

def Shape.depth (s : Shape) : Nat :=
  match s with
  | ⟨required, optional, rest, result, _, _, _⟩ =>
      max (max (Slot.depthAll required) (Slot.depthAll optional))
        (max (Slot.depth rest) (Slot.depth result)) + 1
termination_by structural s

/-- The greatest depth of the types in some slots. -/
def Slot.depthAll (slots : List Slot) : Nat :=
  match slots with
  | [] => 0
  | x :: xs => max (Slot.depth x) (Slot.depthAll xs)
termination_by structural slots

def Slot.depth (x : Slot) : Nat :=
  match x with
  | none => 0
  | some t => t.depth
termination_by structural x

end

section

variable {n : Nat}

theorem Slot.depth_le {x : Slot} : Slot.depth x ≤ n ↔ ∀ t, x = some t → t.depth ≤ n := by
  cases x <;> simp [Slot.depth]

theorem Slot.depthAll_le {l : List Slot} :
    Slot.depthAll l ≤ n ↔ ∀ t, some t ∈ l → t.depth ≤ n := by
  induction l with
  | nil => simp [Slot.depthAll]
  | cons x xs ih =>
      rw [Slot.depthAll, Nat.max_le, Slot.depth_le, ih]
      simp only [List.mem_cons, or_imp, forall_and, eq_comm]

theorem Ty.depth_union_le {p : Primitives} {c : ClassSet} {callable : Callable} :
    (Ty.union p c callable).depth ≤ n ↔ ∀ f, callable = some f → f.depth ≤ n := by
  cases callable <;> simp [Ty.depth, Callable.depth]

theorem Signature.depth_pos (f : Signature) : 0 < f.depth := by
  cases f with
  | top loose => exact Nat.one_pos
  | shaped s => cases s; exact Nat.succ_pos _

/-- A signature is one level deeper than the types in its slots. -/
theorem Signature.depth_le_succ {f : Signature} :
    f.depth ≤ n + 1 ↔ ∀ t, some t ∈ f.slots → t.depth ≤ n := by
  cases f with
  | top loose => simp [Signature.depth]
  | shaped s =>
      obtain ⟨required, optional, rest, result, owner, captures, loose⟩ := s
      rw [Signature.depth, Shape.depth, Nat.add_le_add_iff_right, Nat.max_le, Nat.max_le,
        Nat.max_le, Slot.depthAll_le, Slot.depthAll_le, Slot.depth_le, Slot.depth_le]
      simp only [Signature.slots_shaped, Shape.mem_slots, List.mem_append, or_imp, forall_and,
        eq_comm]

private def Flat (a b : Ty) : Prop :=
  ∀ (bound : Bound) (z : Ty) (n : Nat), Ty.combine bound a b = .ok z → a.depth ≤ n →
    b.depth ≤ n → z.depth ≤ n

private theorem Signature.depth_of_combine_aux {bound : Bound} {f g u : Signature}
    (ih : ∀ a, some a ∈ f.slots → ∀ b, Flat a b) (h : Signature.combine bound f g = .ok u)
    (hf : f.depth ≤ n) (hg : g.depth ≤ n) : u.depth ≤ n := by
  rcases Signature.combine_cases h with
    rfl | rfl | ⟨loose, still, from_top, rfl⟩ | ⟨s, t, v, rfl, rfl, rfl, merged⟩
  · exact hf
  · exact hg
  · exact Nat.le_trans f.depth_pos hf
  -- What a merge holds comes from the slots of the operands, which are one level less deep.
  · obtain ⟨m, rfl⟩ : ∃ m, n = m + 1 := Nat.exists_eq_succ_of_ne_zero (by
      have := (Signature.shaped s).depth_pos
      omega)
    have left := Signature.depth_le_succ.1 hf
    have right := Signature.depth_le_succ.1 hg
    apply Signature.depth_le_succ.2
    intro z hz
    rcases Shape.supply_of_merge merged hz with hz | hz | ⟨dir, a, b, ha, hb, hab⟩
    · exact left z hz
    · exact right z hz
    · exact ih a ha b dir z m hab (left a ha) (right b hb)

/-- A bound of two types is no deeper than they are. -/
theorem Ty.depth_of_combine {bound : Bound} {a b z : Ty} (h : Ty.combine bound a b = .ok z)
    (ha : a.depth ≤ n) (hb : b.depth ≤ n) : z.depth ≤ n := by
  suffices flat : ∀ a b, Flat a b from flat a b bound z n h ha hb
  intro a b
  induction a, b using Ty.pair_induction with
  | extreme a b extreme =>
      intro bound z n h ha hb
      rcases Ty.combine_of_extreme extreme bound with eq | eq
      · obtain rfl : a = z := Except.ok.inj (eq.symm.trans h)
        exact ha
      · obtain rfl : b = z := Except.ok.inj (eq.symm.trans h)
        exact hb
  | union p c f q d g ih =>
      intro bound z n h ha hb
      have left := Ty.depth_union_le.1 ha
      have right := Ty.depth_union_le.1 hb
      rw [Ty.combine_union, map_eq_ok] at h
      obtain ⟨callable, hcallable, rfl⟩ := h
      apply Ty.depth_union_le.2
      rcases Callable.combine_cases hcallable with rfl | rfl | rfl | ⟨f, g, u, rfl, rfl, rfl, hu⟩
      · simp
      · exact left
      · exact right
      · rintro _ ⟨⟩
        exact Signature.depth_of_combine_aux (ih f rfl) hu (left f rfl) (right g rfl)

/-- A bound of two signatures is no deeper than they are. -/
theorem Signature.depth_of_combine {bound : Bound} {f g u : Signature}
    (h : Signature.combine bound f g = .ok u) (hf : f.depth ≤ n) (hg : g.depth ≤ n) :
    u.depth ≤ n :=
  Signature.depth_of_combine_aux (fun _ _ _ _ _ _ => Ty.depth_of_combine) h hf hg

end

/-!
### Formals and classes
-/

/-- The number of formals that have a position of their own. A top sentinel has none. -/
def Signature.span : Signature → Nat
  | .top _ => 0
  | .shaped s => s.span

/-- A merge has as many positions as the longer of its operands, or fewer. -/
theorem Shape.span_of_merge {bound : Bound} {s t u : Shape} (h : Shape.merge bound s t = .ok u) :
    u.span ≤ max s.span t.span := by
  obtain ⟨-, formals, rest, result, hformals, -, -, rfl⟩ := Shape.merge_eq_ok.1 h
  generalize MergeRule.of bound s t = rule at *
  calc (rule.assemble s t formals rest result).normalized.span
      ≤ (rule.assemble s t formals rest result).span := Shape.span_normalized_le _
    _ = formals.length := MergeRule.assemble_span
    _ = max s.span t.span := (MergeRule.mergeFormals_eq_ok.1 hformals).1

/-- That class sets hold only certain classes, and that signatures have no more than a certain
    number of formals, is inherited by bounds. -/
theorem Inherited.extent (classes : List NamedClass) (span : Nat) :
    Inherited (fun c => c ⊆ classes) fun g => g.span ≤ span where
  union hc hd := by
    intro x hx
    rcases ClassSet.mem_union.1 hx with hx | hx
    · exact hc hx
    · exact hd hx
  inter hc _ := by
    intro x hx
    exact hc (ClassSet.mem_inter.1 hx).1
  top _ _ := Nat.zero_le span
  merge hs ht h := Nat.le_trans (Shape.span_of_merge h) (Nat.max_le.2 ⟨hs, ht⟩)

/-!
### Extents
-/

/-- Finitely many signatures and types that are given. -/
structure Stock where
  signatures : List Signature
  types : List Ty

namespace Stock

variable (stock : Stock)

/-- The signatures of a stock with all signatures that are nested in its signatures and types. -/
def nested : List Signature :=
  stock.signatures.flatMap Signature.nested ++ stock.types.flatMap Ty.nested

/-- The types of a stock with all types that are nested in its signatures and types. -/
def parts : List Ty :=
  stock.signatures.flatMap Signature.parts ++ stock.types.flatMap Ty.parts

/-- How deep callables are nested in a stock. -/
def depth : Nat :=
  (stock.signatures.map Signature.depth ++ stock.types.map Ty.depth).foldr max 0

/-- The greatest number of formals of a signature in a stock, at any depth. -/
def span : Nat :=
  (stock.nested.map Signature.span).foldr max 0

/-- The classes that occur in a stock, at any depth. -/
def classes : List NamedClass :=
  stock.parts.flatMap Ty.classes

/-- A stock is sound when its signatures and types are complete and regular at every depth. -/
structure Sound : Prop where
  signature : ∀ f ∈ stock.signatures, f.DeeplyValid ∧ f.Regular
  type : ∀ t ∈ stock.types, t.DeeplyValid ∧ t.Regular

end Stock

/-- A type is bounded by a stock when it is no deeper, every class set in it holds only
    classes that occur in the stock, and no signature in it has more formals, at any depth. -/
structure Ty.BoundedBy (stock : Stock) (t : Ty) : Prop where
  depth : t.depth ≤ stock.depth
  inside : t.All (fun c => c ⊆ stock.classes) fun g => g.span ≤ stock.span

@[inherit_doc Ty.BoundedBy]
structure Signature.BoundedBy (stock : Stock) (f : Signature) : Prop where
  depth : f.depth ≤ stock.depth
  inside : f.All (fun c => c ⊆ stock.classes) fun g => g.span ≤ stock.span

section

variable {stock : Stock}

theorem Stock.span_le {g : Signature} (hg : g ∈ stock.nested) : g.span ≤ stock.span :=
  List.le_max_of_le' 0 (List.mem_map_of_mem hg) (Nat.le_refl _)

theorem Stock.classes_subset {u : Ty} (hu : u ∈ stock.parts) : u.classes ⊆ stock.classes :=
  fun _ hc => List.mem_flatMap.2 ⟨u, hu, hc⟩

/-- A stock bounds what belongs to it. -/
theorem Stock.bounds_signature {f : Signature} (hf : f ∈ stock.signatures) : f.BoundedBy stock where
  depth := by
    have listed : f.depth ∈ stock.signatures.map Signature.depth := List.mem_map_of_mem hf
    exact List.le_max_of_le' 0 (List.mem_append_left _ listed) (Nat.le_refl _)
  inside := by
    constructor
    · intro u hu
      apply Stock.classes_subset
      exact List.mem_append_left _ (List.mem_flatMap.2 ⟨f, hf, hu⟩)
    · intro g hg
      apply Stock.span_le
      exact List.mem_append_left _ (List.mem_flatMap.2 ⟨f, hf, hg⟩)

@[inherit_doc Stock.bounds_signature]
theorem Stock.bounds_type {t : Ty} (ht : t ∈ stock.types) : t.BoundedBy stock where
  depth := by
    have listed : t.depth ∈ stock.types.map Ty.depth := List.mem_map_of_mem ht
    exact List.le_max_of_le' 0 (List.mem_append_right _ listed) (Nat.le_refl _)
  inside := by
    constructor
    · intro u hu
      apply Stock.classes_subset
      exact List.mem_append_right _ (List.mem_flatMap.2 ⟨t, ht, hu⟩)
    · intro g hg
      apply Stock.span_le
      exact List.mem_append_right _ (List.mem_flatMap.2 ⟨t, ht, hg⟩)

theorem Signature.BoundedBy.combine {bound : Bound} {f g u : Signature} (hf : f.BoundedBy stock)
    (hg : g.BoundedBy stock) (h : Signature.combine bound f g = .ok u) : u.BoundedBy stock where
  depth := Signature.depth_of_combine h hf.depth hg.depth
  inside := Signature.all_of_combine (.extent stock.classes stock.span) hf.inside hg.inside h

theorem Ty.BoundedBy.combine {bound : Bound} {a b z : Ty} (ha : a.BoundedBy stock)
    (hb : b.BoundedBy stock) (h : Ty.combine bound a b = .ok z) : z.BoundedBy stock where
  depth := Ty.depth_of_combine h ha.depth hb.depth
  inside := Ty.all_of_combine (.extent stock.classes stock.span) ha.inside hb.inside h

/-- The type of the functions of a signature goes no further than the signature. -/
theorem Signature.BoundedBy.callableOf {f : Signature} (hf : f.BoundedBy stock) :
    (Ty.callableOf f).BoundedBy stock where
  depth := hf.depth
  inside := by
    have empty : ([] : ClassSet) ⊆ stock.classes := List.nil_subset _
    exact (Ty.all_callableOf empty).2 hf.inside

end

/-!
### Expressions over a stock
-/

/-- Whether all that is given in the expression belongs to the stock. -/
def SignatureTerm.DrawnFrom (stock : Stock) : SignatureTerm → Prop
  | .given f => f ∈ stock.signatures
  | .combine _ left right | .specialize left right => left.DrawnFrom stock ∧ right.DrawnFrom stock

@[inherit_doc SignatureTerm.DrawnFrom]
def TypeTerm.DrawnFrom (stock : Stock) : TypeTerm → Prop
  | .given t => t ∈ stock.types
  | .functions f => f.DrawnFrom stock
  | .combine _ left right => left.DrawnFrom stock ∧ right.DrawnFrom stock

section

variable {stock : Stock}

theorem SignatureTerm.DrawnFrom.deeplyValid {e : SignatureTerm} (drawn : e.DrawnFrom stock)
    (sound : stock.Sound) : e.DeeplyValid := by
  induction e with
  | given f => exact (sound.signature f drawn).1
  | combine bound left right ihl ihr => exact ⟨ihl drawn.1, ihr drawn.2⟩
  | specialize left right ihl ihr => exact ⟨ihl drawn.1, ihr drawn.2⟩

theorem TypeTerm.DrawnFrom.deeplyValid {x : TypeTerm} (drawn : x.DrawnFrom stock)
    (sound : stock.Sound) : x.DeeplyValid := by
  induction x with
  | given t => exact (sound.type t drawn).1
  | functions f => exact SignatureTerm.DrawnFrom.deeplyValid drawn sound
  | combine bound left right ihl ihr => exact ⟨ihl drawn.1, ihr drawn.2⟩

private theorem Callable.combine_eq_ok {bound : Bound} {f g u : Signature}
    (h : (Callable.combine bound (some f) (some g) >>= Callable.require) = .ok u) :
    Signature.combine bound f g = .ok u := by
  rw [Callable.combine, bind_eq_ok] at h
  obtain ⟨callable, combined, present⟩ := h
  obtain ⟨v, hv, rfl⟩ := map_eq_ok.1 combined
  rw [hv]
  exact present

/-- What the given signatures have and every bound inherits, the value of an expression has. -/
theorem SignatureTerm.eval_keeps {P : Signature → Prop} (given : ∀ f ∈ stock.signatures, P f)
    (step : ∀ {bound f g u}, P f → P g → Signature.combine bound f g = .ok u → P u)
    {e : SignatureTerm} (drawn : e.DrawnFrom stock) {u : Signature} (h : e.eval = .ok u) : P u := by
  induction e generalizing u with
  | given f =>
      obtain rfl := Except.ok.inj h
      exact given f drawn
  | combine bound left right ihl ihr =>
      obtain ⟨f, hf, h⟩ := bind_eq_ok.1 h
      obtain ⟨g, hg, h⟩ := bind_eq_ok.1 h
      exact step (ihl drawn.1 hf) (ihr drawn.2 hg) (Callable.combine_eq_ok h)
  | specialize left right ihl ihr =>
      obtain ⟨f, hf, h⟩ := bind_eq_ok.1 h
      obtain ⟨g, hg, h⟩ := bind_eq_ok.1 h
      rw [Signature.specialize] at h
      split at h
      · obtain rfl := Except.ok.inj h
        exact ihl drawn.1 hf
      · exact step (ihl drawn.1 hf) (ihr drawn.2 hg) (Callable.combine_eq_ok h)

/-- What the given types and the functions of the given signatures have, and every bound inherits,
    the value of an expression has. -/
theorem TypeTerm.eval_keeps {P : Ty → Prop} (given : ∀ t ∈ stock.types, P t)
    (functions : ∀ e : SignatureTerm, e.DrawnFrom stock → ∀ f, e.eval = .ok f → P (.callableOf f))
    (step : ∀ {bound a b z}, P a → P b → Ty.combine bound a b = .ok z → P z)
    {x : TypeTerm} (drawn : x.DrawnFrom stock) {z : Ty} (h : x.eval = .ok z) : P z := by
  induction x generalizing z with
  | given t =>
      obtain rfl := Except.ok.inj h
      exact given t drawn
  | functions e =>
      obtain ⟨f, hf, h⟩ := bind_eq_ok.1 h
      obtain rfl := Except.ok.inj h
      exact functions e drawn f hf
  | combine bound left right ihl ihr =>
      obtain ⟨a, ha, h⟩ := bind_eq_ok.1 h
      obtain ⟨b, hb, h⟩ := bind_eq_ok.1 h
      obtain ⟨y, hy, present⟩ := bind_eq_ok.1 h
      obtain ⟨_, _, ⟨⟩, ⟨⟩, hab⟩ := Slot.both_cases (Slot.require_eq_ok.1 present ▸ hy)
      exact step (ihl drawn.1 ha) (ihr drawn.2 hb) hab

/-- A stock bounds the values of all expressions over it. -/
theorem SignatureTerm.boundedBy_of_eval {e : SignatureTerm} (drawn : e.DrawnFrom stock)
    {u : Signature} (h : e.eval = .ok u) : u.BoundedBy stock :=
  SignatureTerm.eval_keeps (fun _ => Stock.bounds_signature)
    (fun hf hg combined => hf.combine hg combined) drawn h

@[inherit_doc SignatureTerm.boundedBy_of_eval]
theorem TypeTerm.boundedBy_of_eval {x : TypeTerm} (drawn : x.DrawnFrom stock) {z : Ty}
    (h : x.eval = .ok z) : z.BoundedBy stock :=
  TypeTerm.eval_keeps (fun _ => Stock.bounds_type)
    (fun _ drawn _ hf => (SignatureTerm.boundedBy_of_eval drawn hf).callableOf)
    (fun ha hb combined => ha.combine hb combined) drawn h

end

end SignatureLattice
