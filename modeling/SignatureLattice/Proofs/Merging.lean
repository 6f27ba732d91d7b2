/-
Module: SignatureLattice.Proofs.Merging
Purpose: The merge of two shapes, taken apart into the merge of their formals, of the types of
  further arguments and of their results, and what follows for everything that is nested in a bound:
  a property that each single merge keeps is kept at every depth.
Main exports: Shape.merge_eq, Shape.merge_eq_ok, Shape.plain_of_merge, Shape.supply_of_merge,
  Shape.dominant?_cases, Signature.combine_shaped_eq_ok, Signature.combine_cases,
  Callable.combine_cases, Callable.isSome_of_combine, Signature.specialize_cases, Inherited,
  Inherited.own, Ty.all_of_combine, Signature.all_of_combine
-/
import SignatureLattice.Algebra
import SignatureLattice.Proofs.Hereditary
import SignatureLattice.Proofs.Stating

namespace SignatureLattice

open Outcome

/-!
### The stages of a merge
-/

namespace MergeRule

/-- Merges the formals, position by position. -/
def mergeFormals (rule : MergeRule) (s t : Shape) : Except Violation (List Ty) :=
  (List.range (max s.span t.span)).mapM fun i =>
    Slot.either rule.formals (s.formalAt? i) (t.formalAt? i)
      >>= Slot.require (.absentFormals rule.formals)

/-- Merges the types of further arguments. -/
def mergeRest (rule : MergeRule) (x y : Slot) : Except Violation Slot :=
  match rule with
  | .precise .join => Slot.both .meet x y
  | .precise .meet => Slot.either .join x y
  | .loose => .ok none

/-- Merges the results. -/
def mergeResult (rule : MergeRule) (x y : Slot) : Except Violation Ty :=
  match rule with
  | .precise bound => Slot.both bound x y >>= Slot.require (.absentOperand bound)
  | .loose => Slot.either .join x y >>= Slot.require (.absentFormals .join)

/-- The shape made of merged parts, as it is before it is normalized. -/
def assemble (rule : MergeRule) (s t : Shape) (formals : List Ty) (rest : Slot) (result : Ty) :
    Shape :=
  let count := rule.requiredCount s.required.length t.required.length
  { required := (formals.take count).map some
    optional := (formals.drop count).map some
    rest
    result := some result
    loose := decide (rule = .loose) }

end MergeRule

/-- The rule for two shapes suits them. -/
theorem MergeRule.check_of (bound : Bound) (s t : Shape) :
    (MergeRule.of bound s t).check s t = .ok () := by
  unfold MergeRule.of
  split
  · rename_i loose
    exact if_pos loose
  · rfl

/-- What is let pass holds a type. -/
theorem Slot.bind_checked (violation : Violation) (x : Except Violation Slot) :
    x >>= Slot.checked violation = some <$> (x >>= Slot.require violation) := by
  cases x with
  | error violation => rfl
  | ok x => cases x <;> rfl

/-- Where something has to be there, nothing is lost by asking for it. -/
theorem Slot.map_require {violation : Violation} {x : Except Violation Slot}
    (there : x ≠ .ok none) :
    some <$> (x >>= Slot.require violation) = x := by
  cases x with
  | error violation => rfl
  | ok x =>
      cases x with
      | none => exact absurd rfl there
      | some t => rfl

theorem Slot.both_eq_none {bound : Bound} {x y : Slot} :
    Slot.both bound x y = .ok none ↔ x = none ∨ y = none := by
  cases x <;> cases y <;> simp [Slot.both, map_eq_ok]

theorem Slot.either_eq_none {bound : Bound} {x y : Slot} :
    Slot.either bound x y = .ok none ↔ x = none ∧ y = none := by
  cases x <;> cases y <;> simp [Slot.either, map_eq_ok]

theorem MergeRule.requiredCount_le (rule : MergeRule) (m n : Nat) :
    rule.requiredCount m n ≤ max m n := by
  unfold MergeRule.requiredCount
  split
  · exact Nat.le_refl _
  · exact Nat.le_trans (Nat.min_le_left m n) (Nat.le_max_left m n)
  · exact Nat.le_trans (Nat.min_le_left m n) (Nat.le_max_left m n)

theorem MergeRule.requiredCount_le_span (rule : MergeRule) (s t : Shape) :
    rule.requiredCount s.required.length t.required.length ≤ max s.span t.span := by
  have enough := rule.requiredCount_le s.required.length t.required.length
  simp only [Shape.span]
  omega

/-- What the draft of a merge is read as, given that what is stated of further arguments comes to
    their merge. -/
private theorem MergeRule.build_compose (rule : MergeRule) (s t : Shape)
    (rest : Option (Except Violation Ty))
    (merged : rest.elim (.ok none) (some <$> ·) = rule.mergeRest s.rest t.rest) :
    (do
      let draft ← Draft.compose (rule.requiredCount s.required.length t.required.length)
        (max s.span t.span)
        (fun i => some <$> (Slot.either rule.formals (s.formalAt? i) (t.formalAt? i)
          >>= Slot.require (.absentFormals rule.formals)))
        (rest.map (some <$> ·)) (some <$> rule.mergeResult s.result t.result)
        (decide (rule = .loose))
      return draft.build) = (do
        let formals ← rule.mergeFormals s t
        let rest ← rule.mergeRest s.rest t.rest
        let result ← rule.mergeResult s.result t.result
        return (rule.assemble s t formals rest result).normalized) := by
  rw [Draft.compose_eq (rule.requiredCount_le_span s t), merged]
  simp only [bind_assoc, pure_bind]
  rfl

/-- A merge validates its operands, merges the parts one sort after the other, and normalizes what
    they make: what it takes for granted holds, and no draft refuses what is stated to it. -/
theorem Shape.merge_eq (bound : Bound) (s t : Shape) :
    Shape.merge bound s t = (do
      let rule := MergeRule.of bound s t
      Shape.validateForMerge s t
      let formals ← rule.mergeFormals s t
      let rest ← rule.mergeRest s.rest t.rest
      let result ← rule.mergeResult s.result t.result
      return (rule.assemble s t formals rest result).normalized) := by
  rw [Shape.merge, MergeRule.check_of]
  generalize MergeRule.of bound s t = rule
  simp only [Slot.bind_checked]
  refine bind_congr (m := Except Violation) (x := Shape.validateForMerge s t) fun _ => ?_
  have stated := rule.build_compose s t
  cases rule with
  | precise bound =>
      cases bound with
      | join =>
          by_cases both : (s.rest.isSome && t.rest.isSome) = true
          · simp only [if_pos both]
            refine stated (some _) (Slot.map_require fun lacking => ?_)
            rcases Slot.both_eq_none.1 lacking with lacking | lacking <;> simp [lacking] at both
          · simp only [if_neg both]
            refine stated none (Slot.both_eq_none.2 ?_).symm
            rw [Bool.and_eq_true, not_and_or] at both
            simpa using both
      | meet =>
          by_cases either : (s.rest.isSome || t.rest.isSome) = true
          · simp only [if_pos either]
            refine stated (some _) (Slot.map_require fun lacking => ?_)
            obtain ⟨hs, ht⟩ := Slot.either_eq_none.1 lacking
            simp [hs, ht] at either
          · simp only [if_neg either]
            refine stated none (Slot.either_eq_none.2 ?_).symm
            simpa using either
  | loose => exact stated none rfl

theorem Shape.merge_eq_ok {bound : Bound} {s t u : Shape} :
    Shape.merge bound s t = .ok u ↔
      Shape.validateForMerge s t = .ok () ∧
        ∃ formals rest result,
          (MergeRule.of bound s t).mergeFormals s t = .ok formals ∧
          (MergeRule.of bound s t).mergeRest s.rest t.rest = .ok rest ∧
          (MergeRule.of bound s t).mergeResult s.result t.result = .ok result ∧
          ((MergeRule.of bound s t).assemble s t formals rest result).normalized = u := by
  rw [Shape.merge_eq]
  simp only [bind_eq_ok]
  constructor
  · rintro ⟨_, valid, formals, hformals, rest, hrest, result, hresult, h⟩
    exact ⟨valid, formals, rest, result, hformals, hrest, hresult, Except.ok.inj h⟩
  · rintro ⟨valid, formals, rest, result, hformals, hrest, hresult, h⟩
    exact ⟨(), valid, formals, hformals, rest, hrest, result, hresult, congrArg _ h⟩

theorem Slot.require_eq_ok {violation : Violation} {x : Slot} {t : Ty} :
    Slot.require violation x = .ok t ↔ x = some t := by
  cases x <;> simp [Slot.require]

/-- The merged formals: one for each position, made of what both shapes demand there. -/
theorem MergeRule.mergeFormals_eq_ok {rule : MergeRule} {s t : Shape} {formals : List Ty} :
    rule.mergeFormals s t = .ok formals ↔
      formals.length = max s.span t.span ∧
        ∀ (i : Nat) (h : i < formals.length),
          Slot.either rule.formals (s.formalAt? i) (t.formalAt? i) = .ok (some formals[i]) := by
  simp only [MergeRule.mergeFormals, mapM_range_eq_ok, bind_eq_ok, Slot.require_eq_ok,
    exists_eq_right]

/-- Normalizing takes optional formals away and leaves the rest as it is. -/
theorem Shape.normalized_eq (s : Shape) :
    ∃ optional, optional <+: s.optional ∧ s.normalized = { s with optional } := by
  unfold Shape.normalized
  split
  · exact ⟨s.optional, List.prefix_refl _, by cases s; rfl⟩
  · refine ⟨_, ?_, rfl⟩
    rw [← List.reverse_suffix, List.reverse_reverse]
    exact List.dropWhile_suffix _

@[simp] theorem Shape.normalized_required (s : Shape) : s.normalized.required = s.required := by
  obtain ⟨optional, -, eq⟩ := s.normalized_eq
  rw [eq]

@[simp] theorem Shape.normalized_rest (s : Shape) : s.normalized.rest = s.rest := by
  obtain ⟨optional, -, eq⟩ := s.normalized_eq
  rw [eq]

@[simp] theorem Shape.normalized_result (s : Shape) : s.normalized.result = s.result := by
  obtain ⟨optional, -, eq⟩ := s.normalized_eq
  rw [eq]

/-- Where no further arguments are taken, nothing says again what an optional formal says. -/
theorem Shape.normalized_of_rest {s : Shape} (h : s.rest = none) : s.normalized = s := by
  simp [Shape.normalized, h]

theorem Shape.span_normalized_le (s : Shape) : s.normalized.span ≤ s.span := by
  obtain ⟨optional, sub, eq⟩ := s.normalized_eq
  rw [eq]
  exact Nat.add_le_add_left sub.length_le _

theorem Shape.mem_slots_of_normalized {s : Shape} {x : Slot} (h : x ∈ s.normalized.slots) :
    x ∈ s.slots := by
  obtain ⟨optional, sub, eq⟩ := s.normalized_eq
  rw [eq] at h
  simp only [Shape.mem_slots, List.mem_append] at h ⊢
  exact h.imp_left (Or.imp_right (sub.subset ·))

theorem MergeRule.mem_slots_assemble {rule : MergeRule} {s t : Shape} {formals : List Ty}
    {rest : Slot} {result u : Ty} :
    some u ∈ (rule.assemble s t formals rest result).slots ↔
      u ∈ formals ∨ rest = some u ∨ result = u := by
  simp only [MergeRule.assemble, Shape.mem_slots, ← List.map_append, List.take_append_drop,
    List.mem_map, Option.some.injEq, exists_eq_right, eq_comm (a := some u)]

theorem MergeRule.requiredCount_self (rule : MergeRule) (n : Nat) : rule.requiredCount n n = n := by
  unfold MergeRule.requiredCount
  split
  · exact Nat.max_self n
  · exact Nat.min_self n
  · exact Nat.min_self n

section

variable {rule : MergeRule} {s t : Shape} {formals : List Ty} {rest : Slot} {result : Ty}

@[simp] theorem MergeRule.assemble_formals :
    (rule.assemble s t formals rest result).required ++
      (rule.assemble s t formals rest result).optional = formals.map some := by
  simp only [MergeRule.assemble, ← List.map_append, List.take_append_drop]

theorem MergeRule.assemble_span :
    (rule.assemble s t formals rest result).span = formals.length := by
  rw [Shape.span, ← List.length_append, MergeRule.assemble_formals, List.length_map]

theorem MergeRule.assemble_formalAt? {i : Nat} (h : i < formals.length) :
    (rule.assemble s t formals rest result).formalAt? i = some formals[i] := by
  rw [Shape.formalAt?, MergeRule.assemble_formals, List.getD_eq_getElem?_getD]
  simp [h]

theorem MergeRule.assemble_required (h : rule.mergeFormals s t = .ok formals) :
    (rule.assemble s t formals rest result).required.length =
      rule.requiredCount s.required.length t.required.length := by
  have enough := rule.requiredCount_le s.required.length t.required.length
  have length := (MergeRule.mergeFormals_eq_ok.1 h).1
  simp only [MergeRule.assemble, List.length_map, List.length_take]
  simp only [Shape.span] at length
  omega

end

/-- Further arguments are merged by the rule for the two shapes. -/
theorem Shape.rest_of_merge {bound : Bound} {s t u : Shape} (h : Shape.merge bound s t = .ok u) :
    (MergeRule.of bound s t).mergeRest s.rest t.rest = .ok u.rest := by
  obtain ⟨-, formals, rest, result, -, hrest, -, rfl⟩ := Shape.merge_eq_ok.1 h
  rw [Shape.normalized_rest]
  exact hrest

/-- Only a precise merge takes further arguments. -/
theorem Shape.precise_of_rest {bound : Bound} {s t u : Shape} (h : Shape.merge bound s t = .ok u)
    (rest : u.rest.isSome) : MergeRule.of bound s t = .precise bound := by
  have merged := Shape.rest_of_merge h
  unfold MergeRule.of at merged ⊢
  split at merged
  · have absent : none = u.rest := Except.ok.inj merged
    rw [← absent] at rest
    exact Bool.noConfusion rest
  · rename_i precise
    rw [if_neg precise]

/-- A merge constructs no class and assumes nothing of captured variables, and only the rule for the
    two shapes can make it loose. -/
theorem Shape.plain_of_merge {bound : Bound} {s t u : Shape} (h : Shape.merge bound s t = .ok u) :
    u.owner = none ∧ u.captures = [] ∧ u.loose = decide (MergeRule.of bound s t = .loose) := by
  obtain ⟨-, formals, rest, result, -, -, -, rfl⟩ := Shape.merge_eq_ok.1 h
  obtain ⟨optional, -, eq⟩ :=
    ((MergeRule.of bound s t).assemble s t formals rest result).normalized_eq
  rw [eq]
  exact ⟨rfl, rfl, rfl⟩

/-!
### Two merges that go the same way
-/

/-- Merging two slots goes the same way as merging two others, whether one of them suffices or both
    are needed, with outcomes related by `p`. -/
structure Slot.Parallel (e : Violation → Violation → Prop) (p : Slot → Slot → Prop)
    (x y x' y' : Slot) : Prop where
  either : ∀ bound, Related e p (Slot.either bound x y) (Slot.either bound x' y')
  both : ∀ bound, Related e p (Slot.both bound x y) (Slot.both bound x' y')

/-- Two merges by the same rule go the same way when the merges of their slots do and related parts
    are put together to related shapes. -/
theorem Shape.merge_related {bound : Bound} {s t s' t' : Shape} {e : Violation → Violation → Prop}
    {p : Slot → Slot → Prop} {r : Ty → Ty → Prop} {q : Shape → Shape → Prop}
    (rule : MergeRule.of bound s t = MergeRule.of bound s' t')
    (valid : Related e (fun _ _ => True) (Shape.validateForMerge s t)
      (Shape.validateForMerge s' t'))
    (span : max s.span t.span = max s'.span t'.span)
    (formals : ∀ i, Slot.Parallel e p (s.formalAt? i) (t.formalAt? i) (s'.formalAt? i)
      (t'.formalAt? i))
    (rest : Slot.Parallel e p s.rest t.rest s'.rest t'.rest)
    (result : Slot.Parallel e p s.result t.result s'.result t'.result)
    (none : p none none)
    (require : ∀ {violation : Violation} {x x' : Slot}, p x x' →
      Related e r (Slot.require violation x) (Slot.require violation x'))
    (assemble : ∀ {rule : MergeRule} {l l' : List Ty} {x x' : Slot} {a a' : Ty},
      List.Forall₂ r l l' → p x x' → r a a' →
        q (rule.assemble s t l x a).normalized (rule.assemble s' t' l' x' a').normalized) :
    Related e q (Shape.merge bound s t) (Shape.merge bound s' t') := by
  rw [Shape.merge_eq, Shape.merge_eq, ← rule]
  generalize MergeRule.of bound s t = rule
  have hformals : Related e (List.Forall₂ r) (rule.mergeFormals s t)
      (rule.mergeFormals s' t') := by
    unfold MergeRule.mergeFormals
    rw [span]
    exact Related.mapM fun i _ => ((formals i).either rule.formals).bind fun _ _ => require
  have hrest : Related e p (rule.mergeRest s.rest t.rest) (rule.mergeRest s'.rest t'.rest) := by
    match rule with
    | .precise .join => exact rest.both .meet
    | .precise .meet => exact rest.either .join
    | .loose => exact none
  have hresult : Related e r (rule.mergeResult s.result t.result)
      (rule.mergeResult s'.result t'.result) := by
    match rule with
    | .precise bound => exact (result.both bound).bind fun _ _ => require
    | .loose => exact (result.either .join).bind fun _ _ => require
  refine valid.bind fun _ _ _ => hformals.bind fun l l' hl => hrest.bind fun x x' hx => ?_
  exact hresult.bind fun a a' ha => assemble hl hx ha

/-!
### What a merge puts into a slot
-/

theorem Slot.either_cases {bound : Bound} {x y : Slot} {v : Ty}
    (h : Slot.either bound x y = .ok (some v)) :
    x = some v ∨ y = some v ∨ ∃ a b, x = some a ∧ y = some b ∧ Ty.combine bound a b = .ok v := by
  cases x with
  | none => exact .inr (.inl (by simpa [Slot.either] using h))
  | some a =>
      cases y with
      | none => exact .inl (by simpa [Slot.either] using h)
      | some b =>
          rw [Slot.either, map_eq_ok] at h
          obtain ⟨c, hc, eq⟩ := h
          obtain rfl := Option.some.inj eq
          exact .inr (.inr ⟨a, b, rfl, rfl, hc⟩)

theorem Slot.both_cases {bound : Bound} {x y : Slot} {v : Ty}
    (h : Slot.both bound x y = .ok (some v)) :
    ∃ a b, x = some a ∧ y = some b ∧ Ty.combine bound a b = .ok v := by
  cases x with
  | none => simp [Slot.both] at h
  | some a =>
      cases y with
      | none => simp [Slot.both] at h
      | some b =>
          rw [Slot.both, map_eq_ok] at h
          obtain ⟨c, hc, eq⟩ := h
          obtain rfl := Option.some.inj eq
          exact ⟨a, b, rfl, rfl, hc⟩

/-- What two shapes supply to a merge: what a slot of either holds, and the bounds of what two slots
    hold. -/
def Shape.Supply (s t : Shape) (v : Ty) : Prop :=
  some v ∈ s.slots ∨ some v ∈ t.slots ∨
    ∃ (dir : Bound) (a b : Ty), some a ∈ s.slots ∧ some b ∈ t.slots ∧ Ty.combine dir a b = .ok v

theorem Shape.supply_of_merge {bound : Bound} {s t u : Shape} (h : Shape.merge bound s t = .ok u)
    {v : Ty} (hv : some v ∈ u.slots) : Shape.Supply s t v := by
  obtain ⟨-, formals, rest, result, hformals, hrest, hresult, rfl⟩ := Shape.merge_eq_ok.1 h
  generalize MergeRule.of bound s t = rule at *
  have either : ∀ {x y : Slot} {dir : Bound}, x ∈ s.slots → y ∈ t.slots →
      Slot.either dir x y = .ok (some v) → Shape.Supply s t v := by
    intro x y dir hx hy h
    rcases Slot.either_cases h with rfl | rfl | ⟨a, b, rfl, rfl, hab⟩
    · exact .inl hx
    · exact .inr (.inl hy)
    · exact .inr (.inr ⟨dir, a, b, hx, hy, hab⟩)
  have both : ∀ {x y : Slot} {dir : Bound}, x ∈ s.slots → y ∈ t.slots →
      Slot.both dir x y = .ok (some v) → Shape.Supply s t v := by
    intro x y dir hx hy h
    obtain ⟨a, b, rfl, rfl, hab⟩ := Slot.both_cases h
    exact .inr (.inr ⟨dir, a, b, hx, hy, hab⟩)
  rcases MergeRule.mem_slots_assemble.1 (Shape.mem_slots_of_normalized hv) with hv | rfl | rfl
  · obtain ⟨i, hi, rfl⟩ := List.getElem_of_mem hv
    exact either (s.formalAt?_mem_slots i) (t.formalAt?_mem_slots i)
      ((MergeRule.mergeFormals_eq_ok.1 hformals).2 i hi)
  · cases rule with
    | precise bound =>
        cases bound with
        | join => exact both s.rest_mem_slots t.rest_mem_slots hrest
        | meet => exact either s.rest_mem_slots t.rest_mem_slots hrest
    | loose => simp [MergeRule.mergeRest] at hrest
  · cases rule with
    | precise bound =>
        obtain ⟨z, hz, hv⟩ := bind_eq_ok.1 hresult
        exact both s.result_mem_slots t.result_mem_slots (Slot.require_eq_ok.1 hv ▸ hz)
    | loose =>
        obtain ⟨z, hz, hv⟩ := bind_eq_ok.1 hresult
        exact either s.result_mem_slots t.result_mem_slots (Slot.require_eq_ok.1 hv ▸ hz)

/-!
### Bounds of types and of signatures

A bound of two unions is made part by part; as soon as one operand is an extreme type, the bound is
one of the operands.
-/

/-- Whether a type is the top or the unknown type. -/
def Ty.isExtreme (t : Ty) : Bool :=
  t.isTop || t.isUnknown

theorem Ty.combine_of_extreme {a b : Ty} (h : (a.isExtreme || b.isExtreme) = true)
    (bound : Bound) : Ty.combine bound a b = .ok a ∨ Ty.combine bound a b = .ok b := by
  cases a <;> cases b <;> cases bound <;>
    simp_all [Ty.combine, Bound.pick, Ty.isExtreme, Ty.isTop, Ty.isUnknown]

theorem Ty.combine_union (bound : Bound) (p q : Primitives) (c d : ClassSet) (f g : Callable) :
    Ty.combine bound (.union p c f) (.union q d g) =
      Ty.union (bound.pick (p.union q) (p.inter q)) (bound.pick (c.union d) (c.inter d))
        <$> Callable.combine bound f g := by
  rw [Ty.combine]
  cases Callable.combine bound f g <;> rfl

/-- The top type is neutral in a lower bound, and the type of no value in an upper bound. -/
theorem Ty.combine_top (a : Ty) : Ty.combine .meet .top a = .ok a := by
  rw [Ty.combine]
  rfl

theorem Ty.combine_bottom (a : Ty) : Ty.combine .join .bottom a = .ok a := by
  cases a with
  | top => simp [Ty.bottom, Ty.combine, Bound.pick]
  | unknown => simp [Ty.bottom, Ty.combine, Bound.pick]
  | union p c f =>
      rw [Ty.bottom, Ty.combine_union]
      cases f <;> simp [Callable.combine, Bound.pick, Primitives.union, ClassSet.union]

/-- In the other bound they prevail on either side. -/
theorem Ty.combine_join_top {a b : Ty} (h : a = .top ∨ b = .top) :
    Ty.combine .join a b = .ok .top := by
  rcases h with rfl | rfl
  · rw [Ty.combine]
    rfl
  · cases a <;> simp [Ty.combine, Bound.pick]

theorem Ty.combine_meet_bottom {a b : Ty} (h : a = .bottom ∨ b = .bottom) :
    Ty.combine .meet a b = .ok .bottom := by
  rcases h with rfl | rfl
  · cases b with
    | union q d g =>
        rw [Ty.bottom, Ty.combine_union]
        cases g <;> simp [Callable.combine, Bound.pick, Primitives.inter, ClassSet.inter]
    | _ => simp [Ty.bottom, Ty.combine, Bound.pick]
  · cases a with
    | union p c f =>
        rw [Ty.bottom, Ty.combine_union]
        cases f <;> simp [Callable.combine, Bound.pick, Primitives.inter, ClassSet.inter]
    | _ => simp [Ty.bottom, Ty.combine, Bound.pick]

/-- The top type is the lower bound of no other types. -/
theorem Ty.top_of_meet {a b : Ty} (h : Ty.combine .meet a b = .ok .top) : a = .top ∧ b = .top := by
  cases a with
  | top => exact ⟨rfl, by simpa [Ty.combine, Bound.pick] using h⟩
  | unknown => cases b <;> simp [Ty.combine, Bound.pick] at h
  | union p c f =>
      cases b with
      | union q d g =>
          rw [Ty.combine_union, map_eq_ok] at h
          obtain ⟨k, -, eq⟩ := h
          simp at eq
      | _ => simp [Ty.combine, Bound.pick] at h

/-- What holds of two types of which one is extreme, and passes from the slots of the callable part
    of a union to the union, holds of all pairs of types. -/
theorem Ty.pair_induction {P : Ty → Ty → Prop}
    (extreme : ∀ a b, (a.isExtreme || b.isExtreme) = true → P a b)
    (union : ∀ (p : Primitives) (c : ClassSet) (f : Callable) (q : Primitives) (d : ClassSet)
      (g : Callable), (∀ f', f = some f' → ∀ a, some a ∈ f'.slots → ∀ b, P a b) →
      P (.union p c f) (.union q d g)) (a b : Ty) : P a b := by
  induction a using Ty.nested_induction generalizing b with
  | top => exact extreme .top b rfl
  | unknown => exact extreme .unknown b rfl
  | union p c f ih =>
      cases b with
      | top => exact extreme _ _ rfl
      | unknown => exact extreme _ _ rfl
      | union q d g => exact union p c f q d g ih

/-- An operand is the bound already when both are equal, or, in an upper bound, when the other one
    is least. -/
theorem Shape.dominant?_cases {bound : Bound} {s t u : Shape}
    (h : Shape.dominant? bound s t = some u) :
    (s.same t = true ∧ u = s) ∨
      bound = .join ∧ (t.isBottom = true ∧ u = s ∨ s.isBottom = true ∧ u = t) := by
  cases bound with
  | join =>
      simp only [Shape.dominant?, Bool.or_eq_true] at h
      split at h
      · rename_i gives
        have left := (Option.some.inj h).symm
        exact gives.elim (fun least => .inr ⟨rfl, .inl ⟨least, left⟩⟩) fun same => .inl ⟨same, left⟩
      · split at h
        · rename_i least
          exact .inr ⟨rfl, .inr ⟨least, (Option.some.inj h).symm⟩⟩
        · simp at h
  | meet =>
      simp only [Shape.dominant?] at h
      split at h
      · rename_i same
        exact .inl ⟨same, (Option.some.inj h).symm⟩
      · simp at h

theorem Shape.dominant?_eq_some {bound : Bound} {s t u : Shape}
    (h : Shape.dominant? bound s t = some u) : u = s ∨ u = t := by
  rcases Shape.dominant?_cases h with ⟨-, left⟩ | ⟨-, ⟨-, left⟩ | ⟨-, right⟩⟩
  · exact .inl left
  · exact .inl left
  · exact .inr right

theorem Shape.dominant?_eq_none {bound : Bound} {s t : Shape} :
    Shape.dominant? bound s t = none ↔
      s.same t = false ∧ (bound = .join → s.isBottom = false ∧ t.isBottom = false) := by
  unfold Shape.dominant?
  cases bound <;> cases s.same t <;> cases s.isBottom <;> cases t.isBottom <;> simp

/-- The bound of two shapes is the one that is the bound already, or their merge if neither is. -/
theorem Signature.combine_shaped_eq_ok {bound : Bound} {s t : Shape} {f : Signature} :
    Signature.combine bound (.shaped s) (.shaped t) = .ok f ↔
      ∃ u, f = .shaped u ∧ (Shape.dominant? bound s t = some u ∨
        Shape.dominant? bound s t = none ∧ Shape.merge bound s t = .ok u) := by
  rw [Signature.combine]
  cases Shape.dominant? bound s t with
  | some u => simp [eq_comm]
  | none => simp [map_eq_ok, and_comm, eq_comm (a := f)]

/-- A bound of two signatures is one of them, a top sentinel that is no looser than the one it comes
    from, or a merge. -/
theorem Signature.combine_cases {bound : Bound} {f g u : Signature}
    (h : Signature.combine bound f g = .ok u) :
    u = f ∨ u = g ∨
      (∃ loose still, (f = .top loose ∨ g = .top loose) ∧ u = .top (loose && still)) ∨
      ∃ s t v, f = .shaped s ∧ g = .shaped t ∧ u = .shaped v ∧ Shape.merge bound s t = .ok v := by
  match f, g with
  | .top loose, g =>
      obtain rfl := Except.ok.inj (Signature.combine.eq_2 bound g loose ▸ h)
      cases bound with
      | join => exact .inr (.inr (.inl ⟨loose, _, .inl rfl, rfl⟩))
      | meet => exact .inr (.inl rfl)
  | .shaped s, .top loose =>
      obtain rfl := Except.ok.inj (Signature.combine.eq_3 bound (.shaped s) loose (by simp) ▸ h)
      cases bound with
      | join => exact .inr (.inr (.inl ⟨loose, _, .inr rfl, rfl⟩))
      | meet => exact .inl rfl
  | .shaped s, .shaped t =>
      obtain ⟨v, rfl, dominant | ⟨-, merged⟩⟩ := Signature.combine_shaped_eq_ok.1 h
      · rcases Shape.dominant?_eq_some dominant with rfl | rfl
        · exact .inl rfl
        · exact .inr (.inl rfl)
      · exact .inr (.inr (.inr ⟨s, t, v, rfl, rfl, rfl, merged⟩))

/-- A bound of two callable parts is absent, one of them, or the bound of the signatures that they
    are. -/
theorem Callable.combine_cases {bound : Bound} {f g u : Callable}
    (h : Callable.combine bound f g = .ok u) :
    u = none ∨ u = f ∨ u = g ∨
      ∃ f' g' u', f = some f' ∧ g = some g' ∧ u = some u' ∧
        Signature.combine bound f' g' = .ok u' := by
  cases f with
  | none =>
      obtain rfl : bound.pick g none = u := by simpa [Callable.combine] using h
      cases bound with
      | join => exact .inr (.inr (.inl rfl))
      | meet => exact .inl rfl
  | some f =>
      cases g with
      | none =>
          obtain rfl : bound.pick (some f) none = u := by simpa [Callable.combine] using h
          cases bound with
          | join => exact .inr (.inl rfl)
          | meet => exact .inl rfl
      | some g =>
          rw [Callable.combine, map_eq_ok] at h
          obtain ⟨v, hv, rfl⟩ := h
          exact .inr (.inr (.inr ⟨f, g, v, rfl, rfl, rfl, hv⟩))

theorem Callable.combine_some {bound : Bound} {f g u : Signature} :
    Callable.combine bound (some f) (some g) = .ok (some u) ↔
      Signature.combine bound f g = .ok u := by
  rw [Callable.combine, map_eq_ok]
  simp

/-- There is an upper bound of two callable parts when one of them is there, and a lower bound when
    both are. -/
theorem Callable.isSome_of_combine {bound : Bound} {f g u : Callable}
    (h : Callable.combine bound f g = .ok u) :
    u.isSome = bound.pick (f.isSome || g.isSome) (f.isSome && g.isSome) := by
  cases f with
  | none =>
      obtain rfl : bound.pick g none = u := by simpa [Callable.combine] using h
      cases bound <;> simp [Bound.pick]
  | some f =>
      cases g with
      | none =>
          obtain rfl : bound.pick (some f) none = u := by simpa [Callable.combine] using h
          cases bound <;> rfl
      | some g =>
          rw [Callable.combine, map_eq_ok] at h
          obtain ⟨v, -, rfl⟩ := h
          cases bound <;> rfl

/-- Narrowing yields nothing, the signature itself, or a lower bound. -/
theorem Signature.specialize_cases {f : Signature} {observed u : Callable}
    (h : f.specialize observed = .ok u) :
    u = none ∨ u = some f ∨ Callable.combine .meet (some f) observed = .ok u := by
  cases observed with
  | none => exact .inl (Except.ok.inj h).symm
  | some g =>
      rw [Signature.specialize] at h
      split at h
      · exact .inr (.inl (Except.ok.inj h).symm)
      · exact .inr (.inr h)

/-!
### Inheritance

A property is inherited when the class sets keep it under union and intersection and the signatures
keep it when two shapes are merged. What is nested in a bound then has it at every depth.
-/

/-- The steps by which a bound inherits a property of its operands. -/
structure Inherited (C : ClassSet → Prop) (Q : Signature → Prop) : Prop where
  union : ∀ {c d : ClassSet}, C c → C d → C (c.union d)
  inter : ∀ {c d : ClassSet}, C c → C d → C (c.inter d)
  top : ∀ {loose : Bool} (still : Bool), Q (.top loose) → Q (.top (loose && still))
  merge : ∀ {bound : Bound} {s t u : Shape}, Q (.shaped s) → Q (.shaped t) →
    Shape.merge bound s t = .ok u → Q (.shaped u)

section

variable {C : ClassSet → Prop} {Q : Signature → Prop}

/-- A bound of two signatures inherits what they have themselves. -/
theorem Inherited.own (inherited : Inherited C Q) {bound : Bound} {f g u : Signature} (hf : Q f)
    (hg : Q g) (h : Signature.combine bound f g = .ok u) : Q u := by
  rcases Signature.combine_cases h with
    rfl | rfl | ⟨loose, still, from_top, rfl⟩ | ⟨s, t, v, rfl, rfl, rfl, merged⟩
  · exact hf
  · exact hg
  · rcases from_top with rfl | rfl
    · exact inherited.top still hf
    · exact inherited.top still hg
  · exact inherited.merge hf hg merged

/-- The bounds of two types inherit the property. -/
private def Passes (C : ClassSet → Prop) (Q : Signature → Prop) (a b : Ty) : Prop :=
  a.All C Q → b.All C Q → ∀ (bound : Bound) (z : Ty), Ty.combine bound a b = .ok z → z.All C Q

private theorem Signature.all_of_combine_aux (inherited : Inherited C Q) {bound : Bound}
    {f g u : Signature} (ih : ∀ a, some a ∈ f.slots → ∀ b, Passes C Q a b) (hf : f.All C Q)
    (hg : g.All C Q) (h : Signature.combine bound f g = .ok u) : u.All C Q := by
  refine Signature.all_iff.2 ⟨inherited.own hf.own hg.own h, fun z hz => ?_⟩
  rcases Signature.combine_cases h with
    rfl | rfl | ⟨loose, still, from_top, rfl⟩ | ⟨s, t, v, rfl, rfl, rfl, merged⟩
  · exact hf.slot hz
  · exact hg.slot hz
  · simp at hz
  · rcases Shape.supply_of_merge merged hz with hz | hz | ⟨dir, a, b, ha, hb, hab⟩
    · exact hf.slot hz
    · exact hg.slot hz
    · exact ih a ha b (hf.slot ha) (hg.slot hb) dir z hab

/-- A bound of two types inherits what both have at every depth. -/
theorem Ty.all_of_combine (inherited : Inherited C Q) {bound : Bound} {a b z : Ty}
    (ha : a.All C Q) (hb : b.All C Q) (h : Ty.combine bound a b = .ok z) : z.All C Q := by
  suffices passes : ∀ a b, Passes C Q a b from passes a b ha hb bound z h
  intro a b
  induction a, b using Ty.pair_induction with
  | extreme a b extreme =>
      intro ha hb bound z h
      rcases Ty.combine_of_extreme extreme bound with eq | eq
      · obtain rfl : a = z := by simpa [eq] using h
        exact ha
      · obtain rfl : b = z := by simpa [eq] using h
        exact hb
  | union p c f q d g ih =>
      intro ha hb bound z h
      obtain ⟨hc, hf⟩ := Ty.all_union.1 ha
      obtain ⟨hd, hg⟩ := Ty.all_union.1 hb
      rw [Ty.combine_union, map_eq_ok] at h
      obtain ⟨callable, hcallable, rfl⟩ := h
      refine Ty.all_union.2 ⟨?_, ?_⟩
      · cases bound with
        | join => exact inherited.union hc hd
        | meet => exact inherited.inter hc hd
      · rcases Callable.combine_cases hcallable with
          rfl | rfl | rfl | ⟨f, g, u, rfl, rfl, rfl, hu⟩
        · simp
        · exact hf
        · exact hg
        · rintro _ ⟨⟩
          exact Signature.all_of_combine_aux inherited (ih f rfl) (hf f rfl) (hg g rfl) hu

/-- A bound of two signatures inherits what both have at every depth. -/
theorem Signature.all_of_combine (inherited : Inherited C Q) {bound : Bound} {f g u : Signature}
    (hf : f.All C Q) (hg : g.All C Q) (h : Signature.combine bound f g = .ok u) : u.All C Q :=
  Signature.all_of_combine_aux inherited
    (fun _ _ _ ha hb _ _ h => Ty.all_of_combine inherited ha hb h) hf hg h

end

end SignatureLattice
