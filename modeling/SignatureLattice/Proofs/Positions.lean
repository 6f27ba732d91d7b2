/-
Module: SignatureLattice.Proofs.Positions
Purpose: Exact shapes seen position by position. An exact shape is determined by how many arguments
  it requires, by what it demands at each position and by its result; and all of a bound is read off
  the operands: its formals as far as the longer operand reaches, and what it says of further
  arguments past that.
Main exports: Shape.formalAt?_normalized, Shape.ext_of_formalAt?, Shape.Pointwise,
  Shape.exists_pointwise, Shape.bound_eq_iff
-/
import Mathlib.Data.List.GetD
import Mathlib.Data.Option.NAry
import SignatureLattice.Proofs.Assembly
import SignatureLattice.Proofs.Exact

namespace SignatureLattice

open Outcome

/-!
### Slots
-/

namespace Slot

/-- What the slot holds, if it holds anything, is exact. -/
def Exact (x : Slot) : Prop :=
  ∀ a, x = some a → a.Exact

variable {x y : Slot}

theorem exact_merge (bound : Bound) (hx : Exact x) (hy : Exact y) :
    Exact (Option.merge (Ty.bound bound) x y) := by
  cases x with
  | none => simpa using hy
  | some a =>
      cases y with
      | none => simpa using hx
      | some b =>
          rintro _ ⟨⟩
          exact Ty.exact_bound bound (hx a rfl) (hy b rfl)

theorem exact_map₂ (bound : Bound) (hx : Exact x) (hy : Exact y) :
    Exact (Option.map₂ (Ty.bound bound) x y) := by
  intro c hc
  obtain ⟨a, b, ha, hb, rfl⟩ := Option.map₂_eq_some_iff.1 hc
  exact Ty.exact_bound bound (hx a ha) (hy b hb)

theorem forget_of_exact {keep : Bool} (hx : Exact x) : Slot.forget keep x = x := by
  cases x with
  | none => rfl
  | some a => rw [Slot.forget_some, Ty.forget_of_exact (hx a rfl)]

theorem eq_of_same (hx : Exact x) (hy : Exact y) (h : Slot.same x y = true) : x = y := by
  rw [Slot.same_iff, forget_of_exact hx, forget_of_exact hy] at h
  exact h

theorem same_refl (x : Slot) : Slot.same x x = true :=
  (Slot.same_iff x x).2 rfl

/-- What two slots hold between them is merged by the bound. -/
theorem Pooled.eq_merge {bound : Bound} {z : Slot} (h : Pooled bound x y z) :
    z = Option.merge (Ty.bound bound) x y := by
  cases h with
  | neither => rfl
  | left a => rfl
  | right b => rfl
  | both h =>
      rw [combine_some] at h
      exact congrArg some (Ty.bound_eq_of_combine h).symm

/-- What two slots hold together is mapped by the bound. -/
theorem Shared.eq_map₂ {bound : Bound} {z : Slot} (h : Shared bound x y z) :
    z = Option.map₂ (Ty.bound bound) x y := by
  cases h with
  | lacking absent => exact (Option.map₂_eq_none_iff.2 absent).symm
  | both h =>
      rw [combine_some] at h
      exact congrArg some (Ty.bound_eq_of_combine h).symm

theorem merge_comm (bound : Bound) (hx : Exact x) (hy : Exact y) :
    Option.merge (Ty.bound bound) x y = Option.merge (Ty.bound bound) y x := by
  cases x with
  | none => simp
  | some a =>
      cases y with
      | none => simp
      | some b =>
          rw [Option.merge_some_some, Option.merge_some_some,
            Ty.bound_comm bound (hx a rfl) (hy b rfl)]

theorem map₂_comm (bound : Bound) (hx : Exact x) (hy : Exact y) :
    Option.map₂ (Ty.bound bound) x y = Option.map₂ (Ty.bound bound) y x := by
  cases x with
  | none => simp
  | some a =>
      cases y with
      | none => simp
      | some b =>
          rw [Option.map₂_some_some, Option.map₂_some_some,
            Ty.bound_comm bound (hx a rfl) (hy b rfl)]

theorem merge_self (bound : Bound) (hx : Exact x) :
    Option.merge (Ty.bound bound) x x = x := by
  cases x with
  | none => rfl
  | some a => rw [Option.merge_some_some, Ty.bound_self bound (hx a rfl)]

theorem map₂_self (bound : Bound) (hx : Exact x) :
    Option.map₂ (Ty.bound bound) x x = x := by
  cases x with
  | none => rfl
  | some a => rw [Option.map₂_some_some, Ty.bound_self bound (hx a rfl)]

end Slot

/-- Only of two top types is the top type the greatest lower bound. -/
theorem Ty.bound_meet_eq_top {a b : Ty} (ha : a.Exact) (hb : b.Exact) :
    Ty.bound .meet a b = .top ↔ a = .top ∧ b = .top := by
  constructor
  · intro top
    exact Ty.top_of_meet (top ▸ Ty.combine_eq_bound .meet ha.deeplyValid hb.deeplyValid)
  · rintro ⟨rfl, rfl⟩
    rw [Ty.bound_top]
    rfl

theorem Ty.isTop_iff {t : Ty} : t.isTop = true ↔ t = .top := by
  cases t <;> simp [Ty.isTop]

/-- The type of no value is the least one. -/
theorem Ty.bound_bottom (t : Ty) : Ty.bound .join .bottom t = t :=
  Ty.bound_eq_of_combine (Ty.combine_bottom t)

/-!
### Positions of one shape
-/

namespace Shape

theorem formalAt?_of_le {s : Shape} {i : Nat} (h : s.span ≤ i) : s.formalAt? i = s.rest :=
  List.getD_eq_default _ _ (by simpa [span] using h)

/-- Past all their formals three shapes show what they say of further arguments. -/
theorem exists_past (s t u : Shape) :
    ∃ i, s.formalAt? i = s.rest ∧ t.formalAt? i = t.rest ∧ u.formalAt? i = u.rest := by
  refine ⟨max s.span (max t.span u.span), ?_, ?_, ?_⟩
  · exact formalAt?_of_le (Nat.le_max_left _ _)
  · exact formalAt?_of_le (Nat.le_trans (Nat.le_max_left _ _) (Nat.le_max_right _ _))
  · exact formalAt?_of_le (Nat.le_trans (Nat.le_max_right _ _) (Nat.le_max_right _ _))

theorem formalAt?_last {s : Shape} (h : s.optional ≠ []) :
    s.formalAt? (s.span - 1) = s.optional.getLast h := by
  have nonempty : s.required ++ s.optional ≠ [] := List.append_ne_nil_of_right_ne_nil _ h
  have last : s.span - 1 < (s.required ++ s.optional).length := by
    rw [span, ← List.length_append]
    exact Nat.sub_one_lt (List.length_pos_of_ne_nil nonempty).ne'
  rw [formalAt?, List.getD_eq_getElem _ _ last, ← List.getLast_append_of_ne_nil nonempty h,
    List.getLast_eq_getElem]
  simp only [span, List.length_append]

/-- The last optional formal of a stripped shape differs from the type of further arguments. -/
theorem last_differs {s : Shape} (stripped : s.Stripped) (optional : s.required.length < s.span)
    (rest : s.rest.isSome) : Slot.same s.rest (s.formalAt? (s.span - 1)) = false := by
  have nonempty : s.optional ≠ [] := by
    intro empty
    simp [span, empty] at optional
  rw [formalAt?_last nonempty]
  exact stripped_iff.1 stripped rest _ (List.getLast?_eq_some_getLast nonempty)

theorem last_ne_rest {s : Shape} (stripped : s.Stripped) (optional : s.required.length < s.span)
    (rest : s.rest.isSome) : s.formalAt? (s.span - 1) ≠ s.rest := by
  intro same
  have differs := last_differs stripped optional rest
  rw [same, Slot.same_refl] at differs
  exact Bool.noConfusion differs

/-- Normalizing changes nothing that is demanded at any position, up to equality: what it drops is
    what the type of further arguments says again. -/
theorem formalAt?_normalized (s : Shape) (i : Nat) :
    Slot.same (s.normalized.formalAt? i) (s.formalAt? i) = true := by
  unfold normalized
  split
  · exact Slot.same_refl _
  · have parts := List.rdropWhile_append_rtakeWhile (p := Slot.same s.rest) (l := s.optional)
    change Slot.same ((s.required ++ s.optional.rdropWhile (Slot.same s.rest)).getD i s.rest) _ = _
    rw [formalAt?]
    conv_lhs => arg 2; rw [← parts, ← List.append_assoc]
    by_cases kept : i < (s.required ++ s.optional.rdropWhile (Slot.same s.rest)).length
    · rw [List.getD_append _ _ _ _ kept]
      exact Slot.same_refl _
    · have past := Nat.le_of_not_lt kept
      rw [List.getD_eq_default _ _ past, List.getD_append_right _ _ _ _ past,
        List.getD_eq_getElem?_getD]
      generalize i - _ = j
      cases dropped : (s.optional.rtakeWhile (Slot.same s.rest))[j]? with
      | none => exact Slot.same_refl _
      | some x => exact List.mem_rtakeWhile_imp (List.mem_of_getElem? dropped)

theorem exact_formalAt? {s : Shape} (hs : (Signature.shaped s).Exact) (i : Nat) :
    Slot.Exact (s.formalAt? i) := fun _ ha =>
  hs.slot (ha ▸ s.formalAt?_mem_slots i)

theorem exact_rest {s : Shape} (hs : (Signature.shaped s).Exact) : Slot.Exact s.rest :=
  fun _ ha => hs.slot (ha ▸ s.rest_mem_slots)

theorem exact_result {s : Shape} (hs : (Signature.shaped s).Exact) : Slot.Exact s.result :=
  fun _ ha => hs.slot (ha ▸ s.result_mem_slots)

/-!
### Shapes are determined by their positions
-/

section

variable {bound : Bound} {s t : Shape}

/-- A formal that stands out against a shape which demands the same at all positions would be one
    that further arguments make superfluous. -/
private theorem span_le_of_agree (ht : (Signature.shaped t).Exact)
    (required : s.required.length = t.required.length)
    (formals : ∀ i, s.formalAt? i = t.formalAt? i) : t.span ≤ s.span := by
  by_contra less
  have lt : s.span < t.span := Nat.lt_of_not_le less
  have optional : t.required.length < t.span := by
    rw [← required]
    exact Nat.lt_of_le_of_lt (Nat.le_add_right _ _) lt
  obtain ⟨a, ha⟩ := exists_formalAt? ht.own.1 (Nat.sub_one_lt_of_lt lt)
  -- The last formal of `t` is what `s`, and with it `t`, demands of further arguments.
  have superfluous : t.rest = some a := by
    rw [← formalAt?_of_le (Nat.le_refl t.span), ← formals, formalAt?_of_le (Nat.le_of_lt lt),
      ← formalAt?_of_le (Nat.le_sub_one_of_lt lt), formals, ha]
  exact last_ne_rest ht.own.2.1 optional (superfluous ▸ rfl) (ha.trans superfluous.symm)

/-- Exact shapes that demand the same at every position, require as many arguments and have the same
    result are the same. -/
theorem ext_of_formalAt? (hs : (Signature.shaped s).Exact) (ht : (Signature.shaped t).Exact)
    (required : s.required.length = t.required.length)
    (formals : ∀ i, s.formalAt? i = t.formalAt? i) (result : s.result = t.result) : s = t := by
  have span : s.span = t.span := Nat.le_antisymm
    (span_le_of_agree hs required.symm fun i => (formals i).symm)
    (span_le_of_agree ht required formals)
  have rest : s.rest = t.rest := by
    rw [← formalAt?_of_le (Nat.le_refl s.span), formals, formalAt?_of_le span.ge]
  have lists : s.required ++ s.optional = t.required ++ t.optional := by
    apply List.ext_getElem (by simpa [Shape.span] using span)
    intro i hi hj
    have here := formals i
    rw [formalAt?, formalAt?, List.getD_eq_getElem _ _ hi, List.getD_eq_getElem _ _ hj] at here
    exact here
  obtain ⟨hrequired, hoptional⟩ := List.append_inj lists required
  obtain ⟨-, -, looseS, ownerS, capturesS⟩ := hs.own
  obtain ⟨-, -, looseT, ownerT, capturesT⟩ := ht.own
  obtain ⟨_, _, _, _, _, _, _⟩ := s
  obtain ⟨_, _, _, _, _, _, _⟩ := t
  simp_all

end

/-!
### Bounds, position by position
-/

/-- What both bounds of two shapes are up to the last formal of either, and past it. -/
structure Pointwise (bound : Bound) (s t u : Shape) : Prop where
  required : u.required.length =
    bound.pick (max s.required.length t.required.length) (min s.required.length t.required.length)
  span : u.span ≤ max s.span t.span
  formalAt? : ∀ i, i < max s.span t.span →
    u.formalAt? i = Option.merge (Ty.bound bound.dual) (s.formalAt? i) (t.formalAt? i)
  rest : u.rest = bound.pick (Option.map₂ (Ty.bound bound.dual) s.rest t.rest)
    (Option.merge (Ty.bound bound.dual) s.rest t.rest)
  result : u.result = Option.map₂ (Ty.bound bound) s.result t.result

section

variable {bound : Bound} {s t u : Shape}

theorem pointwise_self (bound : Bound) (hs : (Signature.shaped s).Exact) :
    Pointwise bound s s s where
  required := by cases bound <;> simp [Bound.pick]
  span := (Nat.max_self _).ge
  formalAt? i _ := (Slot.merge_self bound.dual (exact_formalAt? hs i)).symm
  rest := by
    rw [Slot.map₂_self bound.dual (exact_rest hs), Slot.merge_self bound.dual (exact_rest hs)]
    cases bound <;> rfl
  result := (Slot.map₂_self bound (exact_result hs)).symm

/-- The least shape is no obstacle to an upper bound. -/
theorem pointwise_bottom (hs : (Signature.shaped s).Exact) : Pointwise .join .bottom s s where
  required := (Nat.zero_max _).symm
  span := Nat.le_max_right _ _
  formalAt? i hi := by
    obtain ⟨a, ha⟩ := exists_formalAt? hs.own.1 (show i < s.span by simpa [bottom, span] using hi)
    have top : bottom.formalAt? i = some .top := formalAt?_of_le (Nat.zero_le i)
    rw [top, ha]
    exact congrArg some (Ty.bound_top .meet a).symm
  rest := by
    cases rest : s.rest with
    | none => rfl
    | some r => simp [bottom, Bound.pick, Bound.dual]
  result := by
    obtain ⟨r, hr⟩ := exists_result hs.own.1
    rw [hr]
    exact congrArg some (Ty.bound_bottom _).symm

theorem Pointwise.comm (hs : (Signature.shaped s).Exact) (ht : (Signature.shaped t).Exact)
    (h : Pointwise bound s t u) : Pointwise bound t s u where
  required := by rw [h.required, Nat.max_comm, Nat.min_comm]
  span := Nat.max_comm .. ▸ h.span
  formalAt? i hi := by
    rw [h.formalAt? i (Nat.max_comm .. ▸ hi),
      Slot.merge_comm _ (exact_formalAt? hs i) (exact_formalAt? ht i)]
  rest := by
    rw [h.rest, Slot.map₂_comm _ (exact_rest hs) (exact_rest ht),
      Slot.merge_comm _ (exact_rest hs) (exact_rest ht)]
  result := by rw [h.result, Slot.map₂_comm _ (exact_result hs) (exact_result ht)]

/-- An operand that is the bound already is what a bound should be. -/
theorem pointwise_of_dominant (hs : (Signature.shaped s).Exact) (ht : (Signature.shaped t).Exact)
    (h : dominant? bound s t = some u) : Pointwise bound s t u := by
  rcases dominant?_cases h with ⟨same, rfl⟩ | ⟨rfl, ⟨least, rfl⟩ | ⟨least, rfl⟩⟩
  · obtain rfl := (same_iff_eq hs ht).1 same
    exact pointwise_self bound hs
  · obtain rfl := (isBottom_iff ht).1 least
    exact (pointwise_bottom hs).comm ht hs
  · obtain rfl := (isBottom_iff hs).1 least
    exact pointwise_bottom ht

/-- What exact shapes are merged to before the outcome is normalized. -/
private structure Blend (bound : Bound) (s t w : Shape) : Prop where
  required : w.required.length =
    bound.pick (max s.required.length t.required.length) (min s.required.length t.required.length)
  span : w.span = max s.span t.span
  rest : w.rest = bound.pick (Option.map₂ (Ty.bound bound.dual) s.rest t.rest)
    (Option.merge (Ty.bound bound.dual) s.rest t.rest)
  formalAt? : ∀ i, i < w.span →
    w.formalAt? i = Option.merge (Ty.bound bound.dual) (s.formalAt? i) (t.formalAt? i)
  result : w.result = Option.map₂ (Ty.bound bound) s.result t.result

private theorem exists_blend (hs : (Signature.shaped s).Exact) (ht : (Signature.shaped t).Exact)
    (h : Shape.merge bound s t = .ok u) : ∃ w, w.normalized = u ∧ Blend bound s t w := by
  obtain ⟨w, eq, assembled⟩ := exists_assembled hs.own.1 ht.own.1 h
  rw [MergeRule.of_precise bound hs.own.2.2.1 ht.own.2.2.1] at assembled
  refine ⟨w, eq, ?_, assembled.span, ?_, fun i hi => ?_, ?_⟩
  · rw [assembled.required]
    cases bound <;> rfl
  · have rest := MergeRule.mergeRest_precise.1 assembled.rest
    cases bound with
    | join => exact Slot.Shared.eq_map₂ rest
    | meet => exact Slot.Pooled.eq_merge rest
  · exact (assembled.formals i (assembled.span ▸ hi)).eq_merge
  · obtain ⟨c, hc, result⟩ := assembled.result
    obtain ⟨a, b, ha, hb, bounded⟩ := Slot.combine_eq_ok.1 hc
    rw [result, ha, hb]
    exact congrArg some (Ty.bound_eq_of_combine bounded).symm

private theorem Blend.exact {w : Shape} (hs : (Signature.shaped s).Exact)
    (ht : (Signature.shaped t).Exact) (blend : Blend bound s t w) (i : Nat) :
    Slot.Exact (w.formalAt? i) := by
  by_cases inside : i < w.span
  · rw [blend.formalAt? i inside]
    exact Slot.exact_merge bound.dual (exact_formalAt? hs i) (exact_formalAt? ht i)
  · rw [formalAt?_of_le (Nat.le_of_not_lt inside), blend.rest]
    cases bound with
    | join => exact Slot.exact_map₂ _ (exact_rest hs) (exact_rest ht)
    | meet => exact Slot.exact_merge _ (exact_rest hs) (exact_rest ht)

/-- The bound of two exact shapes is what it should be at each position. -/
theorem exists_pointwise (bound : Bound) (hs : (Signature.shaped s).Exact)
    (ht : (Signature.shaped t).Exact) :
    ∃ u, Signature.bound bound (.shaped s) (.shaped t) = .shaped u ∧ Pointwise bound s t u := by
  have exact := Signature.exact_bound bound hs ht
  obtain ⟨u, eq, dominant | ⟨-, merged⟩⟩ := Signature.combine_shaped_eq_ok.1
    (Signature.combine_eq_bound bound hs.deeplyValid ht.deeplyValid)
  · exact ⟨u, eq, pointwise_of_dominant hs ht dominant⟩
  · obtain ⟨w, rfl, blend⟩ := exists_blend hs ht merged
    rw [eq] at exact
    refine ⟨_, eq, ?_, blend.span ▸ w.span_normalized_le, fun i hi => ?_, ?_, ?_⟩
    · rw [normalized_required, blend.required]
    · rw [← blend.formalAt? i (blend.span ▸ hi)]
      exact Slot.eq_of_same (exact_formalAt? exact i) (blend.exact hs ht i)
        (w.formalAt?_normalized i)
    · rw [normalized_rest, blend.rest]
    · rw [normalized_result, blend.result]

/-- A shape is the bound of two others just when it is what the bound should be at each position. -/
theorem bound_eq_iff (hs : (Signature.shaped s).Exact) (ht : (Signature.shaped t).Exact)
    (hu : (Signature.shaped u).Exact) :
    Signature.bound bound (.shaped s) (.shaped t) = .shaped u ↔ Pointwise bound s t u := by
  obtain ⟨v, eq, pointwise⟩ := exists_pointwise bound hs ht
  have hv : (Signature.shaped v).Exact := eq ▸ Signature.exact_bound bound hs ht
  rw [eq, Signature.shaped.injEq]
  constructor
  · rintro rfl
    exact pointwise
  · intro other
    refine ext_of_formalAt? hv hu (pointwise.required.trans other.required.symm) (fun i => ?_)
      (pointwise.result.trans other.result.symm)
    by_cases inside : i < max s.span t.span
    · rw [pointwise.formalAt? i inside, other.formalAt? i inside]
    · have past := Nat.le_of_not_lt inside
      rw [formalAt?_of_le (Nat.le_trans pointwise.span past),
        formalAt?_of_le (Nat.le_trans other.span past), pointwise.rest, other.rest]

/-- Where both operands demand something, a bound demands the dual bound of it. -/
theorem Pointwise.formalAt?_some (h : Pointwise bound s t u) {i : Nat} {a b : Ty}
    (ha : s.formalAt? i = some a) (hb : t.formalAt? i = some b) :
    u.formalAt? i = some (Ty.bound bound.dual a b) := by
  by_cases inside : i < max s.span t.span
  · rw [h.formalAt? i inside, ha, hb, Option.merge_some_some]
  · have past := Nat.le_of_not_lt inside
    rw [formalAt?_of_le (Nat.le_trans (Nat.le_max_left _ _) past)] at ha
    rw [formalAt?_of_le (Nat.le_trans (Nat.le_max_right _ _) past)] at hb
    rw [formalAt?_of_le (Nat.le_trans h.span past), h.rest, ha, hb]
    cases bound <;> rfl

/-- A lower bound demands the dual bound of what the operands demand, however far they reach. -/
theorem Pointwise.formalAt?_meet (h : Pointwise .meet s t u) (i : Nat) :
    u.formalAt? i = Option.merge (Ty.bound .join) (s.formalAt? i) (t.formalAt? i) := by
  by_cases inside : i < max s.span t.span
  · exact h.formalAt? i inside
  · have past := Nat.le_of_not_lt inside
    rw [formalAt?_of_le (Nat.le_trans h.span past), h.rest,
      formalAt?_of_le (Nat.le_trans (Nat.le_max_left _ _) past),
      formalAt?_of_le (Nat.le_trans (Nat.le_max_right _ _) past)]
    rfl

/-- Where only one operand demands something, a bound demands the same or nothing. -/
theorem Pointwise.formalAt?_left (h : Pointwise bound s t u) {i : Nat} {a c : Ty}
    (ha : s.formalAt? i = some a) (hb : t.formalAt? i = none) (hc : u.formalAt? i = some c) :
    c = a := by
  by_cases inside : i < max s.span t.span
  · rw [h.formalAt? i inside, ha, hb, Option.merge_none_right] at hc
    exact (Option.some.inj hc).symm
  · have past := Nat.le_of_not_lt inside
    rw [formalAt?_of_le (Nat.le_trans (Nat.le_max_left _ _) past)] at ha
    rw [formalAt?_of_le (Nat.le_trans (Nat.le_max_right _ _) past)] at hb
    rw [formalAt?_of_le (Nat.le_trans h.span past), h.rest, ha, hb] at hc
    cases bound with
    | join => simp [Bound.pick] at hc
    | meet => exact (Option.some.inj hc).symm

/-- A shape that absorbs another one in a bound absorbs its formals in the dual bound. -/
theorem Pointwise.absorb_formal (h : Pointwise bound s t t) {i : Nat} {a b : Ty}
    (ha : s.formalAt? i = some a) (hb : t.formalAt? i = some b) : Ty.bound bound.dual a b = b :=
  Option.some.inj ((h.formalAt?_some ha hb).symm.trans hb)

/-- It absorbs its result in the same bound. -/
theorem Pointwise.absorb_result (h : Pointwise bound s t t) {a b : Ty} (ha : s.result = some a)
    (hb : t.result = some b) : Ty.bound bound a b = b := by
  have result := h.result
  rw [ha, hb, Option.map₂_some_some, Option.some.injEq] at result
  exact result.symm

/-- A position at which an exact shape demands nothing is past its formals. -/
theorem span_le_of_absent (hs : (Signature.shaped s).Exact) {i : Nat}
    (absent : s.formalAt? i = none) : s.span ≤ i ∧ s.rest = none := by
  by_cases inside : i < s.span
  · obtain ⟨a, ha⟩ := exists_formalAt? hs.own.1 inside
    rw [absent] at ha
    simp at ha
  · have past := Nat.le_of_not_lt inside
    exact ⟨past, (formalAt?_of_le past).symm.trans absent⟩

/-- A shape that is absorbed by one without further arguments is no longer. -/
theorem Pointwise.span_le (h : Pointwise bound s t t) (hs : (Signature.shaped s).Exact)
    (rest : t.rest = none) : s.span ≤ t.span := by
  by_contra longer
  have less := Nat.lt_of_not_le longer
  obtain ⟨a, ha⟩ := exists_formalAt? hs.own.1 less
  have here := h.formalAt? t.span (Nat.lt_of_lt_of_le less (Nat.le_max_left _ _))
  rw [formalAt?_of_le (Nat.le_refl _), rest, ha] at here
  simp at here

end

end Shape

end SignatureLattice
