/-
Module: SignatureLattice.Proofs.Assembly
Purpose: What a merge puts together. Two slots are merged in one of two ways: one of them suffices,
  or both are needed. Before it is normalized, a merge of two shapes holds at each position, as type
  of further arguments and as result exactly what comes of the slots of the two, and nothing else.
Main exports: Slot.Pooled, Slot.Shared, Slot.either_eq_ok, Slot.both_eq_ok, Shape.Assembled,
  Shape.validates_of_merge, Shape.exists_assembled, Shape.assembled_of_loose, Shape.merge_of_loose
-/
import SignatureLattice.Proofs.Validity

namespace SignatureLattice

open Outcome

/-!
### Two slots
-/

namespace Slot

/-- What two slots hold between them: the bound of what both hold, or what the only one holds. -/
inductive Pooled (bound : Bound) : Slot → Slot → Slot → Prop where
  | neither : Pooled bound none none none
  | left (a : Ty) : Pooled bound (some a) none (some a)
  | right (b : Ty) : Pooled bound none (some b) (some b)
  | both {a b c : Ty} (h : Slot.combine bound (some a) (some b) = .ok c) :
      Pooled bound (some a) (some b) (some c)

/-- What two slots hold together: the bound of what both hold, and nothing if one of them is
    empty. -/
inductive Shared (bound : Bound) : Slot → Slot → Slot → Prop where
  | lacking {x y : Slot} (h : x = none ∨ y = none) : Shared bound x y none
  | both {a b c : Ty} (h : Slot.combine bound (some a) (some b) = .ok c) :
      Shared bound (some a) (some b) (some c)

variable {bound : Bound} {x y z : Slot}

theorem combine_some (bound : Bound) (a b : Ty) :
    Slot.combine bound (some a) (some b) = Ty.combine bound a b := by
  rw [Slot.combine, Slot.both]
  cases Ty.combine bound a b <;> rfl

/-- Only two slots that both hold a type have a bound. -/
theorem combine_eq_ok {c : Ty} :
    Slot.combine bound x y = .ok c ↔
      ∃ a b, x = some a ∧ y = some b ∧ Ty.combine bound a b = .ok c := by
  constructor
  · intro h
    obtain ⟨z, hz, hc⟩ := bind_eq_ok.1 h
    exact Slot.both_cases (Slot.require_eq_ok.1 hc ▸ hz)
  · rintro ⟨a, b, rfl, rfl, h⟩
    rw [combine_some, h]

theorem either_some (bound : Bound) (a b : Ty) :
    Slot.either bound (some a) (some b) = some <$> Slot.combine bound (some a) (some b) := by
  rw [Slot.either, combine_some]

theorem both_some (bound : Bound) (a b : Ty) :
    Slot.both bound (some a) (some b) = some <$> Slot.combine bound (some a) (some b) := by
  rw [Slot.both, combine_some]

theorem either_eq_ok : Slot.either bound x y = .ok z ↔ Pooled bound x y z := by
  constructor
  · intro h
    match x, y with
    | none, none =>
        obtain rfl : none = z := by simpa [Slot.either] using h
        exact .neither
    | none, some b =>
        obtain rfl : some b = z := by simpa [Slot.either] using h
        exact .right b
    | some a, none =>
        obtain rfl : some a = z := by simpa [Slot.either] using h
        exact .left a
    | some a, some b =>
        rw [either_some, map_eq_ok] at h
        obtain ⟨c, hc, rfl⟩ := h
        exact .both hc
  · intro h
    cases h with
    | neither => simp [Slot.either]
    | left a => simp [Slot.either]
    | right b => simp [Slot.either]
    | both h => rw [either_some, h]; rfl

theorem both_eq_ok : Slot.both bound x y = .ok z ↔ Shared bound x y z := by
  constructor
  · intro h
    match x, y with
    | none, y =>
        obtain rfl : none = z := by simpa [Slot.both] using h
        exact .lacking (.inl rfl)
    | some a, none =>
        obtain rfl : none = z := by simpa [Slot.both] using h
        exact .lacking (.inr rfl)
    | some a, some b =>
        rw [both_some, map_eq_ok] at h
        obtain ⟨c, hc, rfl⟩ := h
        exact .both hc
  · intro h
    cases h with
    | lacking absent =>
        rcases absent with rfl | rfl
        · simp [Slot.both]
        · cases x <;> simp [Slot.both]
    | both h => rw [both_some, h]; rfl

theorem Pooled.isSome_iff (h : Pooled bound x y z) : z.isSome ↔ x.isSome ∨ y.isSome := by
  cases h <;> simp

theorem Shared.isSome_iff (h : Shared bound x y z) : z.isSome ↔ x.isSome ∧ y.isSome := by
  cases h with
  | lacking absent => rcases absent with rfl | rfl <;> simp
  | both h => simp

/-- Of two slots that both hold a type, what they hold between them is the bound. -/
theorem Pooled.combine_eq {c : Ty} (h : Pooled bound x y (some c)) (hx : x.isSome)
    (hy : y.isSome) : Slot.combine bound x y = .ok c := by
  cases h with
  | left a => simp at hy
  | right b => simp at hx
  | both h => exact h

theorem Shared.combine_eq {c : Ty} (h : Shared bound x y (some c)) :
    Slot.combine bound x y = .ok c := by
  cases h with
  | both h => exact h

end Slot

/-!
### Two shapes
-/

/-- The bound that the results take. -/
def MergeRule.results : MergeRule → Bound
  | .precise bound => bound
  | .loose => .join

namespace MergeRule

theorem results_of_join (s t : Shape) : (MergeRule.of .join s t).results = .join := by
  unfold MergeRule.of
  split <;> rfl

/-- Further arguments are taken above two shapes if both take them, and below if one does. -/
theorem mergeRest_precise {bound : Bound} {x y z : Slot} :
    (MergeRule.precise bound).mergeRest x y = .ok z ↔
      bound.pick (Slot.Shared .meet) (Slot.Pooled .join) x y z := by
  cases bound with
  | join => exact Slot.both_eq_ok
  | meet => exact Slot.either_eq_ok

/-- Two results that are there have the bound that the rule asks for. -/
theorem combine_of_mergeResult {rule : MergeRule} {a b c : Ty}
    (h : rule.mergeResult (some a) (some b) = .ok c) :
    Slot.combine rule.results (some a) (some b) = .ok c := by
  cases rule with
  | precise bound => exact h
  | loose =>
      -- A loose merge makes do with one result, but here both are there.
      obtain ⟨z, hz, hc⟩ := bind_eq_ok.1 h
      rw [Slot.require_eq_ok.1 hc, Slot.either_some, map_eq_ok] at hz
      obtain ⟨d, hd, eq⟩ := hz
      exact Option.some.inj eq ▸ hd

end MergeRule

namespace Shape

variable {bound : Bound} {s t u w : Shape}

/-- What a merge by a rule puts together of two shapes. -/
structure Assembled (rule : MergeRule) (s t w : Shape) : Prop where
  required : w.required.length = rule.requiredCount s.required.length t.required.length
  span : w.span = max s.span t.span
  formals : ∀ i, i < max s.span t.span →
    Slot.Pooled rule.formals (s.formalAt? i) (t.formalAt? i) (w.formalAt? i)
  rest : rule.mergeRest s.rest t.rest = .ok w.rest
  result : ∃ c, Slot.combine rule.results s.result t.result = .ok c ∧ w.result = some c
  loose : w.loose = decide (rule = .loose)
  owner : w.owner = none
  captures : w.captures = []

/-- A precise merge needs both results, so that it succeeds for valid shapes only. -/
theorem validates_of_merge (rule : MergeRule.of bound s t = .precise bound)
    (h : merge bound s t = .ok u) : s.validate = .ok () ∧ t.validate = .ok () := by
  obtain ⟨valid, -, -, c, -, -, hresult, -⟩ := merge_eq_ok.1 h
  rw [rule] at hresult
  have joined : Slot.combine bound s.result t.result = .ok c := hresult
  obtain ⟨a, b, ha, hb, -⟩ := Slot.combine_eq_ok.1 joined
  exact (validateForMerge_iff (ha ▸ rfl) (hb ▸ rfl)).1 valid

/-- The merge of two valid shapes is what is assembled of them, normalized. -/
theorem exists_assembled (hs : s.validate = .ok ()) (ht : t.validate = .ok ())
    (h : merge bound s t = .ok u) :
    ∃ w, w.normalized = u ∧ Assembled (MergeRule.of bound s t) s t w := by
  obtain ⟨-, formals, rest, result, hformals, hrest, hresult, rfl⟩ := merge_eq_ok.1 h
  obtain ⟨length, merged⟩ := MergeRule.mergeFormals_eq_ok.1 hformals
  obtain ⟨a, ha⟩ := exists_result hs
  obtain ⟨b, hb⟩ := exists_result ht
  refine ⟨_, rfl, MergeRule.assemble_required hformals, MergeRule.assemble_span.trans length,
    fun i hi => ?_, hrest, ⟨result, ?_, rfl⟩, rfl, rfl, rfl⟩
  · have inside : i < formals.length := length ▸ hi
    rw [MergeRule.assemble_formalAt? inside]
    exact Slot.either_eq_ok.1 (merged i inside)
  · rw [ha, hb] at hresult ⊢
    exact MergeRule.combine_of_mergeResult hresult

theorem Assembled.rest_of_loose (h : Assembled .loose s t w) : w.rest = none :=
  (Except.ok.inj h.rest).symm

/-- A merge towards the upper bound takes no further arguments unless both shapes do. -/
theorem Assembled.rest_of_join (h : Assembled (MergeRule.of .join s t) s t w)
    (present : w.rest.isSome) : s.rest.isSome ∧ t.rest.isSome := by
  unfold MergeRule.of at h
  split at h
  · simp [h.rest_of_loose] at present
  · have shared : Slot.Shared .meet s.rest t.rest w.rest := MergeRule.mergeRest_precise.1 h.rest
    exact shared.isSome_iff.1 present

/-- A loose merge takes no further arguments, so nothing of what is assembled is dropped. -/
theorem assembled_of_loose (hs : s.validate = .ok ()) (ht : t.validate = .ok ())
    (rule : MergeRule.of bound s t = .loose) (h : merge bound s t = .ok u) :
    Assembled .loose s t u := by
  obtain ⟨w, rfl, assembled⟩ := exists_assembled hs ht h
  rw [rule] at assembled
  rwa [normalized_of_rest assembled.rest_of_loose]

/-- Where an operand is loose, the bound that is asked for makes no difference to a merge. -/
theorem merge_of_loose (loose : (s.loose || t.loose) = true) :
    merge .join s t = merge .meet s t := by
  have rule : ∀ bound, MergeRule.of bound s t = .loose := fun bound => if_pos loose
  rw [merge_eq, merge_eq, rule, rule]

end Shape

end SignatureLattice
