/-
Module: SignatureLattice.Proofs.Variance
Purpose: The rule that the subtype test decides between precise signatures. The test never states
  it: it builds a demand and compares it with an upper bound. What comes of that is the usual rule.
  The first signature requires no more arguments and has no more formals, its formals are
  contravariant and its result is covariant. Nested signatures may be loose.
Main exports: Shape.expected, Shape.Conforms, Shape.fits_iff_conforms,
  Signature.isSubtypeOf_iff_of_plain, isSubtypeOf_iff_conforms
-/
import SignatureLattice.Proofs.Fitting
import SignatureLattice.Proofs.Totality

namespace SignatureLattice

open Outcome

namespace Shape

/-- What a shape expects at each position of one that is to stand in for it: its formals, of which
    the type of further arguments counts as the last one. Where a formal is unknown, nothing is
    expected that a value could violate. -/
def expected (t : Shape) : List Slot :=
  (t.required ++ t.optional ++ t.rest.toList.map some).map (Option.map Ty.unknownToBottom)

/-- The rule of variance. A shape conforms to another one when it requires no more arguments and has
    no more formals than are expected, when each of its formals gives way to the one that is
    expected there, and when its result gives way to that of the other shape or is unknown. -/
structure Conforms (s t : Shape) : Prop where
  required : s.required.length ≤ t.required.length
  span : s.span ≤ t.expected.length
  formals : ∀ i a b, s.formalAt? i = some a → t.expected[i]? = some (some b) → a.GivesWay .meet b
  result : ∃ a b, s.returned = some a ∧ t.returned = some b ∧ (a = .unknown ∨ a.GivesWay .join b)

variable {s t : Shape}

theorem length_expected (t : Shape) : t.expected.length = t.reach := by
  simp [expected, reach, span, Nat.add_assoc]

/-- A demand asks at each position for what is expected there. -/
theorem getElem?_expected (s : Shape) {i : Nat} (h : i < t.reach) :
    t.expected[i]? = some ((s.demand t).formalAt? i) := by
  have inside : i < t.expected.length := by rwa [length_expected]
  rw [List.getElem?_eq_getElem inside, formalAt?, demand_formals]
  exact congrArg some (List.getD_eq_getElem _ _ inside).symm

theorem lt_reach_of_expected {i : Nat} {x : Slot} (h : t.expected[i]? = some x) : i < t.reach := by
  rw [← length_expected]
  exact (List.getElem?_eq_some_iff.1 h).1

/-- A shape that constructs no class returns what it declares. -/
theorem returned_of_plain (plain : s.owner = none) : s.returned = s.result := by
  rw [returned, plain]

/-- The result of a demand is one to which an unknown result gives way. -/
theorem result_givesWay_iff {a b : Ty} (ha : s.returned = some a) (hb : t.returned = some b) :
    Slot.GivesWay .join (some a) (s.demand t).result ↔ a = .unknown ∨ a.GivesWay .join b := by
  cases unknown : a.isUnknown with
  | true =>
      obtain rfl : a = .unknown := by cases a <;> simp_all [Ty.isUnknown]
      have demand : (s.demand t).result = some .unknown := by simp [Shape.demand, ha, unknown]
      rw [demand]
      refine iff_of_true ?_ (.inl rfl)
      rintro _ _ ⟨⟩ ⟨⟩
      exact ⟨.unknown, by simp [Ty.combine, Bound.pick], rfl⟩
  | false =>
      have known : a ≠ .unknown := by
        rintro rfl
        exact Bool.noConfusion unknown
      have demand : (s.demand t).result = some b := by simp [Shape.demand, ha, hb, unknown]
      rw [demand]
      constructor
      · exact fun gives => .inr (gives a b rfl rfl)
      · intro gives x y hx hy
        obtain rfl := Option.some.inj hx
        obtain rfl := Option.some.inj hy
        exact gives.resolve_left known

/-- Fitting the demand is conforming. -/
theorem fits_iff_conforms (valids : s.validate = .ok ()) (validt : t.validate = .ok ())
    (plain : s.owner = none) : s.Fits (.precise .join) (s.demand t) ↔ s.Conforms t := by
  obtain ⟨a, ha⟩ := exists_returned valids
  obtain ⟨b, hb⟩ := exists_returned validt
  have declared : s.result = some a := (returned_of_plain plain).symm.trans ha
  have required : (s.demand t).required.length = t.required.length := by simp [demand]
  constructor
  · rintro ⟨count, span, formals, result⟩
    rw [required, MergeRule.requiredCount] at count
    rw [demand_span] at span formals
    refine ⟨by omega, by rwa [length_expected], fun i x y hx hy => ?_, a, b, ha, hb, ?_⟩
    · have inside := lt_reach_of_expected hy
      rw [getElem?_expected s inside] at hy
      exact formals i inside x y hx (Option.some.inj hy)
    · rw [declared] at result
      exact (result_givesWay_iff ha hb).1 result
  · rintro ⟨count, span, formals, a', b', ha', hb', result⟩
    obtain rfl := Option.some.inj (ha.symm.trans ha')
    obtain rfl := Option.some.inj (hb.symm.trans hb')
    rw [length_expected] at span
    refine ⟨?_, by rwa [demand_span], fun i hi x y hx hy => ?_, ?_⟩
    · rw [required, MergeRule.requiredCount]
      omega
    · rw [demand_span] at hi
      exact formals i x y hx ((getElem?_expected s hi).trans (congrArg some hy))
    · rw [declared]
      exact (result_givesWay_iff ha hb).2 result

/-- The least shape conforms to every other one. -/
theorem conforms_of_isBottom (least : s.isBottom = true) (plain : s.owner = none)
    (validt : t.validate = .ok ()) : s.Conforms t := by
  obtain ⟨required, optional, -, result⟩ := isBottom_iff_parts.1 least
  obtain ⟨b, hb⟩ := exists_returned validt
  refine ⟨by simp [required], by simp [span, required, optional], fun i x y hx _ => ?_, .bottom, b,
    (returned_of_plain plain).trans result, hb, .inr ?_⟩
  · obtain rfl := Option.some.inj ((formalAt?_of_isBottom least i).symm.trans hx)
    exact Ty.givesWay_top y
  · exact Ty.givesWay_bottom b

end Shape

/-- A precise shape that constructs no class is a subtype of another one when it conforms to it. -/
theorem Signature.isSubtypeOf_iff_of_plain {s t : Shape} (valids : (Signature.shaped s).DeeplyValid)
    (validt : (Signature.shaped t).DeeplyValid) (regular : (Signature.shaped s).Regular)
    (precises : s.loose = false) (preciset : t.loose = false) (plain : s.owner = none) :
    (Signature.shaped s).isSubtypeOf (.shaped t) = .ok true ↔ s.Conforms t := by
  rw [Signature.isSubtypeOf_iff_fits valids regular validt,
    MergeRule.of_precise .join precises preciset,
    Shape.fits_iff_conforms valids.own validt.own plain]
  exact ⟨fun h => h.elim (Shape.conforms_of_isBottom · plain validt.own) id, .inr⟩

/-!
### Main theorem
-/

/-- Between deeply valid precise shapes the subtype test has an answer, and it holds just when the
    first shape, which constructs no class, conforms to the second. -/
theorem isSubtypeOf_iff_conforms {s t : Shape} (valids : (Signature.shaped s).DeeplyValid)
    (validt : (Signature.shaped t).DeeplyValid) (regular : (Signature.shaped s).Regular)
    (precises : s.loose = false) (preciset : t.loose = false) (plain : s.owner = none) :
    ∃ holds, (Signature.shaped s).isSubtypeOf (.shaped t) = .ok holds ∧
      (holds = true ↔ s.Conforms t) := by
  obtain ⟨holds, answer⟩ := Signature.isSubtypeOf_total valids validt
  refine ⟨holds, answer, ?_⟩
  have rule :=
    Signature.isSubtypeOf_iff_of_plain valids validt regular precises preciset plain
  rw [answer] at rule
  exact ⟨fun h => rule.1 (congrArg _ h), fun h => Except.ok.inj (rule.2 h)⟩

/-- The theorem at a shape that takes a loose function and anything after it, and a variadic
    constructor with an unknown formal. -/
theorem isSubtypeOf_iff_conforms_variadic :
    let inner : Signature := .shaped
      { required := [some .unknown], result := some .top, loose := true }
    let s : Shape :=
      { required := [some (.callableOf inner)], optional := [some .top], result := some .bottom }
    let t : Shape :=
      { required := [some (.callableOf inner)], optional := [some .unknown],
        rest := some (.ofPrimitives { string := true }), result := some .unknown,
        owner := some ⟨"Foo", 0⟩ }
    (Signature.shaped s).isSubtypeOf (.shaped t) = .ok true := by
  intro inner s t
  obtain ⟨holds, answer, rule⟩ := isSubtypeOf_iff_conforms (s := s) (t := t) (by decide) (by decide)
    (by decide) rfl rfl rfl
  have conforms : s.Conforms t := by
    refine ⟨Nat.le_refl 1, by decide, fun i a b ha hb => ?_, .bottom, _, rfl, rfl,
      .inr ⟨_, Ty.combine_bottom _, Ty.same_refl _⟩⟩
    match i with
    | 0 =>
        obtain rfl := Option.some.inj ha
        obtain rfl := Option.some.inj (Option.some.inj hb)
        exact Ty.givesWay_of_same (by decide) (Ty.same_refl _) .meet
    | 1 =>
        obtain rfl := Option.some.inj ha
        exact ⟨b, Ty.combine_top b, Ty.same_refl b⟩
    | i + 2 => exact nomatch ha
  rw [answer, rule.2 conforms]

end SignatureLattice
