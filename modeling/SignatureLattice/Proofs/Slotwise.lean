/-
Module: SignatureLattice.Proofs.Slotwise
Purpose: Both bounds of two signatures, read slot by slot. Whatever is nested in the operands, loose
  signatures included, a bound demands at each position what comes of the operands' demands there;
  so it is with further arguments and with the result. That an operand may be the bound already, and
  that a bound is normalized, makes no difference that equality sees. Where an operand is loose and
  neither is the bound already, both bounds are the same signature.
Main exports: Slot.Like, Shape.Slotwise, Shape.exists_slotwise, Shape.exists_loose_merge,
  join_slotwise, meet_slotwise, bounds_of_loose
-/
import SignatureLattice.Proofs.Fingerprinting
import SignatureLattice.Proofs.Fitting

namespace SignatureLattice

open Outcome

/-!
### Slots that equal one of a kind
-/

namespace Slot

/-- A slot is like the slots of a kind when it equals one of them. -/
def Like (kind : Slot → Prop) (x : Slot) : Prop :=
  ∃ y, kind y ∧ Slot.same x y = true

variable {bound : Bound} {x y z : Slot}

theorem isSome_of_same (h : Slot.same x y = true) : x.isSome ↔ y.isSome := by
  cases x <;> cases y <;> simp_all [Slot.same]

theorem Like.of {kind : Slot → Prop} (h : kind x) : Like kind x :=
  ⟨x, h, Slot.same_refl x⟩

theorem Like.congr {kind : Slot → Prop} (h : Like kind x) (same : Slot.same z x = true) :
    Like kind z := by
  obtain ⟨y, hy, equal⟩ := h
  exact ⟨y, hy, Slot.same_equivalence.trans same equal⟩

theorem Like.pooled_isSome (h : Like (Pooled bound x y) z) : z.isSome ↔ x.isSome ∨ y.isSome := by
  obtain ⟨w, hw, same⟩ := h
  exact (isSome_of_same same).trans hw.isSome_iff

theorem Like.shared_isSome (h : Like (Shared bound x y) z) : z.isSome ↔ x.isSome ∧ y.isSome := by
  obtain ⟨w, hw, same⟩ := h
  exact (isSome_of_same same).trans hw.isSome_iff

/-!
### Equal slots, and the order of two slots

What the slots hold has to be regular, as a class set with repetitions is not its own union.
-/

/-- What a slot holds, if it holds anything, is regular. -/
def Regular (x : Slot) : Prop :=
  ∀ a, x = some a → a.Regular

/-- Of two equal types each is equal to both bounds. -/
theorem combine_of_same {a b : Ty} (ha : a.Regular) (h : a.same b = true) (bound : Bound) :
    ∃ c, Slot.combine bound (some a) (some b) = .ok c ∧ a.same c = true := by
  obtain ⟨c, hc, same⟩ := Ty.givesWay_of_same ha h bound
  refine ⟨c, (combine_some bound a b).trans hc, ?_⟩
  rw [Ty.same_iff] at *
  exact h.trans same.symm

/-- Each of two equal slots is like what comes of the two. -/
private theorem like_of_same {kind : Slot → Slot → Slot → Prop} (hx : Regular x)
    (h : Slot.same x y = true) (bound : Bound) (neither : kind none none none)
    (both : ∀ {a b c : Ty}, Slot.combine bound (some a) (some b) = .ok c →
      kind (some a) (some b) (some c)) : Like (kind x y) x := by
  match x, y with
  | none, none => exact .of neither
  | some a, some b =>
      obtain ⟨c, hc, same⟩ := combine_of_same (hx a rfl) (by simpa [Slot.same] using h) bound
      exact ⟨some c, both hc, by simpa [Slot.same] using same⟩
  | none, some _ | some _, none => simp [Slot.same] at h

theorem pooled_of_same (hx : Regular x) (h : Slot.same x y = true) (bound : Bound) :
    Like (Pooled bound x y) x :=
  like_of_same hx h bound .neither .both

theorem shared_of_same (hx : Regular x) (h : Slot.same x y = true) (bound : Bound) :
    Like (Shared bound x y) x :=
  like_of_same hx h bound (.lacking (.inl rfl)) .both

/-- In the other order two regular types have an equal bound. -/
theorem combine_swap {a b c : Ty} (ha : a.Regular) (hb : b.Regular)
    (h : Slot.combine bound (some a) (some b) = .ok c) :
    ∃ d, Slot.combine bound (some b) (some a) = .ok d ∧ c.same d = true := by
  have comm := Ty.combine_comm bound ha hb
  rw [combine_some] at h
  rw [h] at comm
  cases swapped : Ty.combine bound b a with
  | error v =>
      rw [swapped] at comm
      exact comm.elim
  | ok d =>
      rw [swapped] at comm
      exact ⟨d, (combine_some bound b a).trans swapped, (Ty.same_iff c d).2 comm⟩

theorem Pooled.swap (hx : Regular x) (hy : Regular y) (h : Pooled bound x y z) :
    Like (Pooled bound y x) z := by
  cases h with
  | neither => exact .of .neither
  | left a => exact .of (.right a)
  | right b => exact .of (.left b)
  | both h =>
      obtain ⟨d, hd, same⟩ := combine_swap (hx _ rfl) (hy _ rfl) h
      exact ⟨some d, .both hd, by simpa [Slot.same] using same⟩

theorem Shared.swap (hx : Regular x) (hy : Regular y) (h : Shared bound x y z) :
    Like (Shared bound y x) z := by
  cases h with
  | lacking absent => exact .of (.lacking absent.symm)
  | both h =>
      obtain ⟨d, hd, same⟩ := combine_swap (hx _ rfl) (hy _ rfl) h
      exact ⟨some d, .both hd, by simpa [Slot.same] using same⟩

theorem Like.swap {kind swapped : Slot → Prop} (h : Like kind z)
    (step : ∀ w, kind w → Like swapped w) : Like swapped z := by
  obtain ⟨w, hw, same⟩ := h
  exact (step w hw).congr same

end Slot

/-!
### Precise bounds
-/

/-- A signature whose shape is valid says what it demands at each position. -/
theorem Signature.formalAt_eq {s : Shape} (valid : s.validate = .ok ()) (i : Nat) :
    (Signature.shaped s).formalAt i = .ok (s.formalAt? i) := by
  simp [Signature.formalAt, Signature.shape, valid, bind, Except.bind, pure, Except.pure]

namespace Shape

variable {bound : Bound} {s t u : Shape}

/-- What both bounds of two precise shapes are, slot by slot. As far as the longer operand reaches,
    formals take the dual bound, and one of them suffices. Past that, an upper bound takes further
    arguments only if both operands do, and a lower bound if one does. The results take the
    bound. -/
structure Slotwise (bound : Bound) (s t u : Shape) : Prop where
  required : u.required.length =
    bound.pick (max s.required.length t.required.length) (min s.required.length t.required.length)
  within : ∀ i, i < max s.span t.span →
    Slot.Like (Slot.Pooled bound.dual (s.formalAt? i) (t.formalAt? i)) (u.formalAt? i)
  past : ∀ i, max s.span t.span ≤ i →
    Slot.Like (bound.pick (Slot.Shared .meet) (Slot.Pooled .join) s.rest t.rest) (u.formalAt? i)
  result : ∃ c, Slot.combine bound s.result t.result = .ok c ∧
    Slot.same u.result (some c) = true

theorem slotwise_of_merge (hs : s.validate = .ok ()) (ht : t.validate = .ok ())
    (rule : MergeRule.of bound s t = .precise bound) (h : merge bound s t = .ok u) :
    Slotwise bound s t u := by
  obtain ⟨w, rfl, assembled⟩ := exists_assembled hs ht h
  rw [rule] at assembled
  refine ⟨?_, fun i hi => ?_, fun i hi => ?_, ?_⟩
  · rw [normalized_required, assembled.required]
    cases bound <;> rfl
  · exact (Slot.Like.of (assembled.formals i hi)).congr (w.formalAt?_normalized i)
  · -- Past the longer operand the merge demands what it takes as further arguments.
    refine Slot.Like.congr (.of ?_) (w.formalAt?_normalized i)
    rw [formalAt?_of_le (assembled.span.trans_le hi)]
    have rest := MergeRule.mergeRest_precise.1 assembled.rest
    cases bound with
    | join => exact rest
    | meet => exact rest
  · obtain ⟨c, hc, result⟩ := assembled.result
    exact ⟨c, hc, by rw [normalized_result, result]; exact Slot.same_refl _⟩

theorem regular_slot (hs : (Signature.shaped s).Regular) {x : Slot} (hx : x ∈ s.slots) :
    x.Regular := fun _ ha => hs.slot (ha ▸ hx)

/-- Of two equal shapes each is both bounds. -/
theorem slotwise_of_same (hs : (Signature.shaped s).Regular) (valids : s.validate = .ok ())
    (validt : t.validate = .ok ()) (h : s.same t = true) : Slotwise bound s t s := by
  obtain ⟨required, span, -, rest, result⟩ := same_iff_formalAt?.1 h
  refine ⟨?_, fun i hi => ?_, fun i hi => ?_, ?_⟩
  · rw [required, Nat.max_self, Nat.min_self]
    cases bound <;> rfl
  · exact Slot.pooled_of_same (regular_slot hs (s.formalAt?_mem_slots i)) (same_formalAt? h i) _
  · rw [formalAt?_of_le (Nat.le_trans (Nat.le_max_left ..) hi)]
    have regular := regular_slot hs s.rest_mem_slots
    cases bound with
    | join => exact Slot.shared_of_same regular rest _
    | meet => exact Slot.pooled_of_same regular rest _
  · obtain ⟨a, ha⟩ := exists_result valids
    obtain ⟨b, hb⟩ := exists_result validt
    rw [ha, hb] at result
    obtain ⟨c, hc, same⟩ := Slot.combine_of_same (hs.slot (ha ▸ s.result_mem_slots)) result bound
    exact ⟨c, by rw [ha, hb, hc], by rwa [ha]⟩

/-- The least shape gives way in an upper bound. -/
theorem slotwise_of_isBottom (least : s.isBottom = true) (valid : t.validate = .ok ()) :
    Slotwise .join s t t := by
  obtain ⟨required, optional, rest, result⟩ := isBottom_iff_parts.1 least
  have span : s.span = 0 := by simp [Shape.span, required, optional]
  -- Everywhere it demands the top type, which leaves the other demand as it is in a lower bound.
  have demand := formalAt?_of_isBottom least
  refine ⟨?_, fun i hi => ?_, fun i hi => ?_, ?_⟩
  · rw [required]
    exact (Nat.zero_max _).symm
  · rw [span, Nat.zero_max] at hi
    obtain ⟨b, hb⟩ := exists_formalAt? valid hi
    rw [demand, hb]
    exact .of (.both ((Slot.combine_some ..).trans (Ty.combine_top b)))
  · rw [span, Nat.zero_max] at hi
    rw [formalAt?_of_le hi, rest]
    cases t.rest with
    | none => exact .of (.lacking (.inr rfl))
    | some b => exact .of (.both ((Slot.combine_some ..).trans (Ty.combine_top b)))
  · obtain ⟨b, hb⟩ := exists_result valid
    rw [result, hb]
    exact ⟨b, (Slot.combine_some ..).trans (Ty.combine_bottom b), Slot.same_refl _⟩

theorem Slotwise.swap (hs : (Signature.shaped s).Regular) (ht : (Signature.shaped t).Regular)
    (h : Slotwise bound s t u) : Slotwise bound t s u := by
  refine ⟨?_, fun i hi => ?_, fun i hi => ?_, ?_⟩
  · rw [h.required, Nat.max_comm, Nat.min_comm]
  · rw [Nat.max_comm] at hi
    exact (h.within i hi).swap fun w hw => hw.swap
      (regular_slot hs (s.formalAt?_mem_slots i)) (regular_slot ht (t.formalAt?_mem_slots i))
  · rw [Nat.max_comm] at hi
    have regulars := regular_slot hs s.rest_mem_slots
    have regulart := regular_slot ht t.rest_mem_slots
    have here := h.past i hi
    cases bound with
    | join => exact here.swap fun w hw => hw.swap regulars regulart
    | meet => exact here.swap fun w hw => hw.swap regulars regulart
  · obtain ⟨c, hc, same⟩ := h.result
    obtain ⟨a, b, ha, hb, -⟩ := Slot.combine_eq_ok.1 hc
    rw [ha, hb] at hc ⊢
    obtain ⟨d, hd, equal⟩ := Slot.combine_swap (hs.slot (ha ▸ s.result_mem_slots))
      (ht.slot (hb ▸ t.result_mem_slots)) hc
    have equal : Slot.same (some c) (some d) = true := equal
    exact ⟨d, hd, Slot.same_equivalence.trans same equal⟩

/-- An operand that is the bound already is one slot by slot. -/
theorem slotwise_of_dominant (hs : (Signature.shaped s).Regular)
    (ht : (Signature.shaped t).Regular) (valids : s.validate = .ok ())
    (validt : t.validate = .ok ()) (h : dominant? bound s t = some u) :
    Slotwise bound s t u := by
  rcases dominant?_cases h with ⟨same, rfl⟩ | ⟨rfl, ⟨least, rfl⟩ | ⟨least, rfl⟩⟩
  · exact slotwise_of_same hs valids validt same
  · exact (slotwise_of_isBottom least valids).swap ht hs
  · exact slotwise_of_isBottom least validt

/-- Two precise shapes have both bounds, and these are what they should be slot by slot. -/
theorem exists_slotwise (bound : Bound) (valids : (Signature.shaped s).DeeplyValid)
    (validt : (Signature.shaped t).DeeplyValid) (hs : (Signature.shaped s).Regular)
    (ht : (Signature.shaped t).Regular) (precises : s.loose = false) (preciset : t.loose = false) :
    ∃ u, Callable.combine bound (some (.shaped s)) (some (.shaped t)) = .ok (some (.shaped u)) ∧
      u.validate = .ok () ∧ Slotwise bound s t u := by
  obtain ⟨f, hf, deep⟩ := Signature.combine_total bound valids validt
  obtain ⟨u, rfl, outcome⟩ := Signature.combine_shaped_eq_ok.1 hf
  refine ⟨u, by rw [Callable.combine, hf]; rfl, deep.own, ?_⟩
  rcases outcome with dominant | ⟨-, merged⟩
  · exact slotwise_of_dominant hs ht valids.own validt.own dominant
  · have rule := MergeRule.of_precise bound precises preciset
    exact slotwise_of_merge valids.own validt.own rule merged

/-- Where an operand is loose and neither is the bound already, both bounds are one merge. -/
theorem exists_loose_merge (valids : (Signature.shaped s).DeeplyValid)
    (validt : (Signature.shaped t).DeeplyValid) (loose : (s.loose || t.loose) = true)
    (differ : s.same t = false) (leasts : s.isBottom = false) (leastt : t.isBottom = false) :
    ∃ u, (∀ bound, Callable.combine bound (some (.shaped s)) (some (.shaped t)) =
        .ok (some (.shaped u))) ∧
      u.validate = .ok () ∧ Assembled .loose s t u := by
  have general : ∀ bound, dominant? bound s t = none := fun _ =>
    dominant?_eq_none.2 ⟨differ, fun _ => ⟨leasts, leastt⟩⟩
  obtain ⟨f, hf, deep⟩ := Signature.combine_total .join valids validt
  obtain ⟨u, rfl, dominant | ⟨-, merged⟩⟩ := Signature.combine_shaped_eq_ok.1 hf
  · simp [general] at dominant
  · refine ⟨u, fun bound => ?_, deep.own,
      assembled_of_loose valids.own validt.own (if_pos loose) merged⟩
    have either : merge bound s t = .ok u := by
      cases bound with
      | join => exact merged
      | meet => exact (merge_of_loose loose).symm.trans merged
    rw [Callable.combine, Signature.combine_shaped_eq_ok.2 ⟨u, rfl, .inr ⟨general bound, either⟩⟩]
    rfl

end Shape

/-!
### Main theorems
-/

section

variable {s t : Shape}

/-- The upper bound of two precise shapes, position by position. It requires as many arguments as
    the operand that requires more. As far as the longer operand reaches, it demands the lower bound
    of what both demand, or what the only one demands. Past that it demands something only if both
    operands take further arguments, and then the lower bound of the two. Its result is the upper
    bound of the results. -/
theorem join_slotwise (valids : (Signature.shaped s).DeeplyValid)
    (validt : (Signature.shaped t).DeeplyValid) (regulars : (Signature.shaped s).Regular)
    (regulart : (Signature.shaped t).Regular) (precises : s.loose = false)
    (preciset : t.loose = false) :
    ∃ u : Shape, Callable.join (some (.shaped s)) (some (.shaped t)) = .ok (some (.shaped u)) ∧
      (∀ i, (Signature.shaped u).formalAt i = .ok (u.formalAt? i)) ∧
      u.required.length = max s.required.length t.required.length ∧
      (∀ i, i < max s.span t.span → (u.formalAt? i).isSome ∧
        Slot.Like (Slot.Pooled .meet (s.formalAt? i) (t.formalAt? i)) (u.formalAt? i)) ∧
      (∀ i, max s.span t.span ≤ i → ((u.formalAt? i).isSome ↔ s.rest.isSome ∧ t.rest.isSome) ∧
        Slot.Like (Slot.Shared .meet s.rest t.rest) (u.formalAt? i)) ∧
      ∃ c, Slot.join s.result t.result = .ok c ∧ Slot.same u.result (some c) = true := by
  obtain ⟨u, hu, valid, slotwise⟩ :=
    Shape.exists_slotwise .join valids validt regulars regulart precises preciset
  refine ⟨u, hu, Signature.formalAt_eq valid, slotwise.required, fun i hi => ?_, fun i hi => ?_,
    slotwise.result⟩
  · refine ⟨?_, slotwise.within i hi⟩
    rw [(slotwise.within i hi).pooled_isSome]
    exact Shape.isSome_formalAt?_of_lt_max valids.own validt.own hi
  · have here : Slot.Like (Slot.Shared .meet s.rest t.rest) (u.formalAt? i) := slotwise.past i hi
    exact ⟨here.shared_isSome, here⟩

/-- The theorem at a shape that takes a loose function and any number of strings, and a shape that
    takes no further arguments. -/
theorem join_slotwise_variadic :
    let inner : Signature := .shaped
      { required := [some .unknown], result := some .top, loose := true }
    let s : Shape :=
      { required := [some (.callableOf inner)], rest := some (.ofPrimitives { string := true }),
        result := some .bottom }
    let t : Shape :=
      { optional := [some .top, some .unknown, some (.callableOf (.top true))],
        result := some (.callableOf inner) }
    ∃ u : Shape, Callable.join (some (.shaped s)) (some (.shaped t)) = .ok (some (.shaped u)) ∧
      u.required.length = 1 ∧ (u.formalAt? 2).isSome ∧ u.formalAt? 3 = none := by
  intro inner s t
  obtain ⟨u, hu, -, required, within, past, -⟩ :=
    join_slotwise (s := s) (t := t) (by decide) (by decide) (by decide) (by decide) rfl rfl
  have absent : ¬ (u.formalAt? 3).isSome := fun present =>
    Bool.noConfusion ((past 3 (by decide)).1.1 present).2
  exact ⟨u, hu, required, (within 2 (by decide)).1, Option.not_isSome_iff_eq_none.1 absent⟩

/-- The lower bound of two precise shapes, position by position. It requires as many arguments as
    the operand that requires fewer. At every position it demands the upper bound of what both
    operands demand, or what the only one demands, and nothing where neither does. Its result is the
    lower bound of the results. -/
theorem meet_slotwise (valids : (Signature.shaped s).DeeplyValid)
    (validt : (Signature.shaped t).DeeplyValid) (regulars : (Signature.shaped s).Regular)
    (regulart : (Signature.shaped t).Regular) (precises : s.loose = false)
    (preciset : t.loose = false) :
    ∃ u : Shape, Callable.meet (some (.shaped s)) (some (.shaped t)) = .ok (some (.shaped u)) ∧
      (∀ i, (Signature.shaped u).formalAt i = .ok (u.formalAt? i)) ∧
      u.required.length = min s.required.length t.required.length ∧
      (∀ i, (u.formalAt? i = none ↔ s.formalAt? i = none ∧ t.formalAt? i = none) ∧
        Slot.Like (Slot.Pooled .join (s.formalAt? i) (t.formalAt? i)) (u.formalAt? i)) ∧
      ∃ c, Slot.meet s.result t.result = .ok c ∧ Slot.same u.result (some c) = true := by
  obtain ⟨u, hu, valid, slotwise⟩ :=
    Shape.exists_slotwise .meet valids validt regulars regulart precises preciset
  refine ⟨u, hu, Signature.formalAt_eq valid, slotwise.required, fun i => ?_, slotwise.result⟩
  have here : Slot.Like (Slot.Pooled .join (s.formalAt? i) (t.formalAt? i)) (u.formalAt? i) := by
    by_cases inside : i < max s.span t.span
    · exact slotwise.within i inside
    · have past : max s.span t.span ≤ i := Nat.le_of_not_lt inside
      rw [Shape.formalAt?_of_le (Nat.le_trans (Nat.le_max_left ..) past),
        Shape.formalAt?_of_le (Nat.le_trans (Nat.le_max_right ..) past)]
      exact slotwise.past i past
  refine ⟨?_, here⟩
  have present := here.pooled_isSome
  rw [← Option.not_isSome_iff_eq_none, ← Option.not_isSome_iff_eq_none,
    ← Option.not_isSome_iff_eq_none, present, not_or]

/-- The theorem at a shape with an unknown formal and a variadic constructor that takes functions and
    approximations of functions. -/
theorem meet_slotwise_variadic :
    let inner : Signature := .shaped
      { optional := [some .top], result := some .unknown, loose := true }
    let s : Shape :=
      { required := [some .unknown, some (.callableOf .bottom)],
        result := some (.callableOf (.top true)) }
    let t : Shape :=
      { required := [some (.callableOf inner)], rest := some (.callableOf .bottom),
        result := some (.callableOf inner), owner := some ⟨"Foo", 0⟩ }
    ∃ u : Shape, Callable.meet (some (.shaped s)) (some (.shaped t)) = .ok (some (.shaped u)) ∧
      u.required.length = 1 ∧ ∀ i, u.formalAt? i ≠ none := by
  intro inner s t
  obtain ⟨u, hu, -, required, formals, -⟩ :=
    meet_slotwise (s := s) (t := t) (by decide) (by decide) (by decide) (by decide) rfl rfl
  refine ⟨u, hu, required, fun i absent => ?_⟩
  have nothing : t.formalAt? i = none := ((formals i).1.1 absent).2
  cases i <;> simp [t, Shape.formalAt?] at nothing

/-- Where an operand is loose, the operands differ and neither is bottom-shaped, both bounds are the
    same signature: a loose one that constructs no class, assumes nothing of captured variables and
    takes no further arguments. It requires as many arguments as the operand that requires fewer,
    and reaches as far as the longer one. Up to there it demands the upper bound of what both
    demand, or what the only one demands, and its result is the upper bound of the results. -/
theorem bounds_of_loose (valids : (Signature.shaped s).DeeplyValid)
    (validt : (Signature.shaped t).DeeplyValid) (loose : s.loose = true ∨ t.loose = true)
    (differ : (Signature.shaped s).same (.shaped t) = false)
    (leasts : (Signature.shaped s).isBottom = false)
    (leastt : (Signature.shaped t).isBottom = false) :
    ∃ u : Shape, Callable.join (some (.shaped s)) (some (.shaped t)) = .ok (some (.shaped u)) ∧
      Callable.meet (some (.shaped s)) (some (.shaped t)) = .ok (some (.shaped u)) ∧
      (u.loose = true ∧ u.rest = none ∧ u.owner = none ∧ u.captures = []) ∧
      (∀ i, (Signature.shaped u).formalAt i = .ok (u.formalAt? i)) ∧
      u.required.length = min s.required.length t.required.length ∧
      u.span = max s.span t.span ∧
      (∀ i, i < u.span → (u.formalAt? i).isSome ∧
        Slot.Pooled .join (s.formalAt? i) (t.formalAt? i) (u.formalAt? i)) ∧
      (∀ i, u.span ≤ i → u.formalAt? i = none) ∧
      ∃ c, Slot.join s.result t.result = .ok c ∧ u.result = some c := by
  obtain ⟨u, hu, valid, assembled⟩ :=
    Shape.exists_loose_merge valids validt (by simpa using loose) differ leasts leastt
  have rest := assembled.rest_of_loose
  refine ⟨u, hu .join, hu .meet, ⟨assembled.loose, rest, assembled.owner, assembled.captures⟩,
    Signature.formalAt_eq valid, assembled.required, assembled.span, fun i hi => ?_, fun i hi => ?_,
    assembled.result⟩
  · obtain ⟨c, hc⟩ := Shape.exists_formalAt? valid hi
    exact ⟨hc ▸ rfl, assembled.formals i (assembled.span ▸ hi)⟩
  · rw [Shape.formalAt?_of_le hi, rest]

/-- The theorem at a loose variadic constructor and a precise signature that takes functions. -/
theorem bounds_of_loose_variadic :
    let s : Shape :=
      { required := [some .unknown], rest := some (.callableOf (.top true)), result := some .bottom,
        owner := some ⟨"Foo", 0⟩, loose := true }
    let t : Shape :=
      { required := [some (.callableOf .bottom), some .top], optional := [some .unknown],
        rest := some .top, result := some (.instanceOf ⟨"Foo", 0⟩) }
    ∃ u : Shape, Callable.join (some (.shaped s)) (some (.shaped t)) = .ok (some (.shaped u)) ∧
      Callable.meet (some (.shaped s)) (some (.shaped t)) = .ok (some (.shaped u)) ∧
      u.required.length = 1 ∧ u.span = 3 ∧ u.formalAt? 3 = none := by
  intro s t
  obtain ⟨u, join, meet, -, -, required, span, -, past, -⟩ :=
    bounds_of_loose (s := s) (t := t) (by decide) (by decide) (.inl rfl) (by decide) (by decide)
      (by decide)
  exact ⟨u, join, meet, required, span, past 3 span.le⟩

end

end SignatureLattice
