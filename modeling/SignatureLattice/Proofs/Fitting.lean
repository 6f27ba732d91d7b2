/-
Module: SignatureLattice.Proofs.Fitting
Purpose: The subtype test read position by position. The test asks whether a demand is the upper
  bound of itself and the tested shape. That comes down to four things: how many arguments are
  required, how far the formals reach, what gives way at each position, and the results. Nested
  signatures may be loose, and so may the two that are compared.
Main exports: Ty.GivesWay, Shape.same_iff_formalAt?, Shape.demand_formalAt?, Shape.Fits,
  Shape.isBottom_iff_parts, Signature.combine_of_isBottom, Signature.isSubtypeOf_of_isBottom,
  Signature.isSubtypeOf_iff_same_or_fits, Signature.isSubtypeOf_iff_fits
-/
import SignatureLattice.Proofs.Demand
import SignatureLattice.Proofs.Positions

namespace SignatureLattice

open Outcome

/-!
### Equal types
-/

theorem Ty.same_comm (a b : Ty) : a.same b = b.same a := by
  rw [Bool.eq_iff_iff, Ty.same_iff, Ty.same_iff, eq_comm]

theorem Ty.same_refl (t : Ty) : t.same t = true :=
  (Ty.same_iff t t).2 rfl

theorem Ty.same_top_iff {a : Ty} : a.same .top = true ↔ a = .top := by
  cases a <;> simp [Ty.same]

theorem Ty.same_bottom_iff {a : Ty} : a.same .bottom = true ↔ a = .bottom := by
  cases a with
  | top => simp [Ty.same, Ty.bottom]
  | unknown => simp [Ty.same, Ty.bottom]
  | union p c f => cases f <;> simp [Ty.same, Callable.same, Ty.bottom]

/-- Where a type equals none but itself, so does a slot that holds it. -/
theorem Slot.same_some_iff {x : Slot} {b : Ty} (alone : ∀ {a : Ty}, a.same b = true ↔ a = b) :
    Slot.same x (some b) = true ↔ x = some b := by
  cases x with
  | none => simp [Slot.same]
  | some a => rw [Slot.same, alone, Option.some.injEq]

/-!
### Giving way
-/

/-- A type gives way to another one in a bound when the bound of the two equals the other one. -/
def Ty.GivesWay (bound : Bound) (a b : Ty) : Prop :=
  ∃ z, Ty.combine bound a b = .ok z ∧ z.same b = true

/-- What one slot holds gives way to what the other one holds, unless one of them is empty. -/
def Slot.GivesWay (bound : Bound) (x y : Slot) : Prop :=
  ∀ a b, x = some a → y = some b → a.GivesWay bound b

/-- The bound of two slots equals the right one when the left one gives way. -/
theorem Slot.same_combine_iff {bound : Bound} {x y : Slot} {c : Ty}
    (h : Slot.combine bound x y = .ok c) :
    Slot.same y (some c) = true ↔ Slot.GivesWay bound x y := by
  obtain ⟨a, b, rfl, rfl, hc⟩ := Slot.combine_eq_ok.1 h
  rw [Slot.same, Ty.same_comm]
  constructor
  · rintro same _ _ ⟨⟩ ⟨⟩
    exact ⟨c, hc, same⟩
  · intro gives
    obtain ⟨d, hd, same⟩ := gives a b rfl rfl
    rwa [Except.ok.inj (hc.symm.trans hd)]

/-- So does what two slots hold between them, if the right one holds something. -/
theorem Slot.Pooled.same_iff {bound : Bound} {x y z : Slot} (h : Slot.Pooled bound x y z)
    (present : y.isSome) : Slot.same y z = true ↔ Slot.GivesWay bound x y := by
  cases h with
  | neither => simp at present
  | left a => simp at present
  | right b => exact iff_of_true (Slot.same_refl _) fun _ _ absent => nomatch absent
  | both h => exact Slot.same_combine_iff h

/-- Equal signatures have the left one as both bounds. -/
theorem Signature.combine_of_same (bound : Bound) {f g : Signature} (h : f.same g = true) :
    ∃ u, Signature.combine bound f g = .ok u ∧ u.same g = true := by
  match f, g with
  | .top _, .top _ => cases bound <;> exact ⟨_, by rw [Signature.combine], rfl⟩
  | .top _, .shaped _ => simp [Signature.same] at h
  | .shaped _, .top _ => simp [Signature.same] at h
  | .shaped s, .shaped t =>
      have same : s.same t = true := by simpa [Signature.same] using h
      have left : Shape.dominant? bound s t = some s := by
        cases bound <;> simp [Shape.dominant?, same]
      exact ⟨.shaped s, by rw [Signature.combine, left], h⟩

/-- So have equal callable parts. -/
theorem Callable.combine_of_same (bound : Bound) {f g : Callable} (h : Callable.same f g = true) :
    ∃ k, Callable.combine bound f g = .ok k ∧ Callable.same k g = true := by
  match f, g with
  | none, none => exact ⟨none, by cases bound <;> simp [Callable.combine, Bound.pick], rfl⟩
  | some f, some g =>
      have equal : f.same g = true := by simpa [Callable.same] using h
      obtain ⟨u, hu, same⟩ := Signature.combine_of_same bound equal
      exact ⟨some u, Callable.combine_some.2 hu, by simpa [Callable.same] using same⟩
  | none, some _ | some _, none => simp [Callable.same] at h

/-- Of two equal types with canonical class sets each gives way to the other. -/
theorem Ty.givesWay_of_same {a b : Ty} (ha : a.Regular) (h : a.same b = true) (bound : Bound) :
    a.GivesWay bound b := by
  match a, b with
  | .top, .top => exact ⟨.top, by cases bound <;> rw [Ty.combine] <;> rfl, rfl⟩
  | .unknown, .unknown => exact ⟨.unknown, by cases bound <;> simp [Ty.combine, Bound.pick], rfl⟩
  | .union p c f, .union q d g =>
      simp only [Ty.same, Bool.and_eq_true, beq_iff_eq] at h
      obtain ⟨⟨rfl, rfl⟩, same⟩ := h
      obtain ⟨k, hk, equal⟩ := Callable.combine_of_same bound same
      refine ⟨.union p c k, ?_, by simp [Ty.same, equal]⟩
      have canonical := (Ty.all_union.1 ha).1
      rw [Ty.combine_union, hk, Primitives.pick_self, ClassSet.pick_self bound canonical]
      rfl
  | .top, .unknown | .top, .union .. | .unknown, .top | .unknown, .union ..
  | .union .., .top | .union .., .unknown => simp [Ty.same] at h

theorem Ty.unknownToBottom_of_ne {a : Ty} (h : a ≠ .unknown) : a.unknownToBottom = a := by
  cases a with
  | unknown => exact absurd rfl h
  | top => rfl
  | union p c f => rfl

theorem Ty.givesWay_top (a : Ty) : Ty.top.GivesWay .meet a :=
  ⟨a, Ty.combine_top a, Ty.same_refl a⟩

theorem Ty.givesWay_bottom (a : Ty) : Ty.bottom.GivesWay .join a :=
  ⟨a, Ty.combine_bottom a, Ty.same_refl a⟩

/-- Giving way is a matter of what is left of two types. -/
theorem Ty.givesWay_forget {bound : Bound} {a b : Ty} :
    (a.forget true).GivesWay bound (b.forget true) ↔ a.GivesWay bound b := by
  simp only [Ty.GivesWay, Ty.combine_forget, map_eq_ok]
  constructor
  · rintro ⟨_, ⟨z, hz, rfl⟩, equal⟩
    exact ⟨z, hz, by rwa [Ty.same_forget] at equal⟩
  · rintro ⟨z, hz, equal⟩
    exact ⟨_, ⟨z, hz, rfl⟩, by rwa [Ty.same_forget]⟩

theorem Slot.givesWay_forget {bound : Bound} {x y : Slot} :
    Slot.GivesWay bound (Slot.forget true x) (Slot.forget true y) ↔ Slot.GivesWay bound x y := by
  constructor
  · rintro gives a b rfl rfl
    exact Ty.givesWay_forget.1 (gives _ _ rfl rfl)
  · intro gives _ _ ha hb
    cases x with
    | none => simp at ha
    | some a =>
        cases y with
        | none => simp at hb
        | some b =>
            obtain rfl := Option.some.inj ha
            obtain rfl := Option.some.inj hb
            exact Ty.givesWay_forget.2 (gives a b rfl rfl)

/-- Exact types give way when their bound is the other one. -/
theorem Ty.givesWay_iff {bound : Bound} {a b : Ty} (ha : a.Exact) (hb : b.Exact) :
    a.GivesWay bound b ↔ Ty.bound bound a b = b := by
  rw [Ty.GivesWay, Ty.combine_eq_bound bound ha.deeplyValid hb.deeplyValid]
  simp only [Except.ok.injEq, exists_eq_left']
  rw [Ty.same_iff, Ty.forget_of_exact hb, Ty.forget_of_exact (Ty.exact_bound bound ha hb)]

/-!
### Equality by position
-/

namespace Shape

/-- Shapes are equal when they require as many arguments, have as many formals and demand equal
    types at each of them, take equal further arguments and have equal results. -/
theorem same_iff_formalAt? {s t : Shape} :
    s.same t = true ↔
      s.required.length = t.required.length ∧ s.span = t.span ∧
        (∀ i, i < s.span → Slot.same (s.formalAt? i) (t.formalAt? i) = true) ∧
        Slot.same s.rest t.rest = true ∧ Slot.same s.result t.result = true := by
  simp only [same_iff, Slot.same_iff]
  constructor
  · intro h
    have span : s.span = t.span := by simpa using congrArg Shape.span h
    refine ⟨by simpa using congrArg (·.required.length) h, span, fun i _ => ?_, ?_, ?_⟩
    · simpa using congrArg (·.formalAt? i) h
    · simpa using congrArg Shape.rest h
    · simpa using congrArg Shape.result h
  · rintro ⟨required, span, formals, rest, result⟩
    have lists : (s.required ++ s.optional).map (Slot.forget false) =
        (t.required ++ t.optional).map (Slot.forget false) := by
      apply List.ext_getElem (by simpa [Shape.span] using span)
      intro i hi hj
      have insides : i < (s.required ++ s.optional).length := by simpa using hi
      have insidet : i < (t.required ++ t.optional).length := by simpa using hj
      have here := formals i (by simpa [Shape.span] using hi)
      rw [formalAt?, formalAt?, List.getD_eq_getElem _ _ insides,
        List.getD_eq_getElem _ _ insidet] at here
      rw [List.getElem_map, List.getElem_map, here]
    rw [List.map_append, List.map_append] at lists
    obtain ⟨hrequired, hoptional⟩ := List.append_inj lists (by simpa using required)
    rw [forget_eq, forget_eq, hrequired, hoptional, rest, result]
    simp

/-- Equal shapes demand equal types at every position. -/
theorem same_formalAt? {s t : Shape} (h : s.same t = true) (i : Nat) :
    Slot.same (s.formalAt? i) (t.formalAt? i) = true := by
  obtain ⟨-, span, formals, rest, -⟩ := same_iff_formalAt?.1 h
  by_cases inside : i < s.span
  · exact formals i inside
  · have past := Nat.le_of_not_lt inside
    rwa [formalAt?_of_le past, formalAt?_of_le (span ▸ past)]

/-!
### Bottom-shaped shapes
-/

/-- A shape is bottom-shaped when it has no formals, takes further arguments of every type and
    declares that it does not return. -/
theorem isBottom_iff_parts {s : Shape} :
    s.isBottom = true ↔
      s.required = [] ∧ s.optional = [] ∧ s.rest = some .top ∧ s.result = some .bottom := by
  have further : Slot.same s.rest bottom.rest = true ↔ s.rest = some .top :=
    Slot.same_some_iff Ty.same_top_iff
  have silent : Slot.same s.result bottom.result = true ↔ s.result = some .bottom :=
    Slot.same_some_iff Ty.same_bottom_iff
  rw [isBottom, same_iff_formalAt?, further, silent]
  constructor
  · rintro ⟨required, span, -, rest, result⟩
    have nothing : s.required.length + s.optional.length = 0 := span
    exact ⟨List.eq_nil_of_length_eq_zero (by omega), List.eq_nil_of_length_eq_zero (by omega), rest,
      result⟩
  · rintro ⟨required, optional, rest, result⟩
    have span : s.span = 0 := by simp [Shape.span, required, optional]
    refine ⟨by rw [required]; rfl, span, fun i hi => ?_, rest, result⟩
    rw [span] at hi
    exact absurd hi (Nat.not_lt_zero i)

/-- A bottom-shaped shape accepts an argument of every type at every position. -/
theorem formalAt?_of_isBottom {s : Shape} (least : s.isBottom = true) (i : Nat) :
    s.formalAt? i = some .top := by
  obtain ⟨required, optional, rest, -⟩ := isBottom_iff_parts.1 least
  simp [formalAt?, required, optional, rest]

/-- A shape that takes no further arguments is not the least one. -/
theorem isBottom_of_rest {s : Shape} (h : s.rest = none) : s.isBottom = false := by
  rw [Bool.eq_false_iff]
  intro least
  rw [(isBottom_iff_parts.1 least).2.2.1] at h
  simp at h

/-!
### What a demand asks at a position
-/

/-- The number of formals of a shape, of which the type of further arguments counts as one. -/
def reach (s : Shape) : Nat :=
  s.span + s.rest.toList.length

/-- A valid shape that takes further arguments demands something at every position. -/
theorem isSome_formalAt?_of_rest {s : Shape} (valid : s.validate = .ok ()) (rest : s.rest.isSome)
    (i : Nat) : (s.formalAt? i).isSome := by
  by_cases inside : i < s.span
  · exact Option.isSome_iff_exists.2 (exists_formalAt? valid inside)
  · rwa [formalAt?_of_le (Nat.le_of_not_lt inside)]

/-- A valid shape demands something at each position that it reaches. -/
theorem exists_formalAt?_of_reach {s : Shape} (valid : s.validate = .ok ()) {i : Nat}
    (h : i < s.reach) : ∃ a, s.formalAt? i = some a := by
  cases rest : s.rest with
  | none => exact exists_formalAt? valid (by simpa [reach, rest] using h)
  | some r => exact Option.isSome_iff_exists.1 (isSome_formalAt?_of_rest valid (rest ▸ rfl) i)

theorem demand_span (s t : Shape) : (s.demand t).span = t.reach := by
  simp [demand, span, reach, Nat.add_assoc]

theorem demand_rest (s t : Shape) : (s.demand t).rest = none := rfl

/-- A demand asks for what the shape demands, with an unknown type read as that of no value. -/
theorem demand_formalAt? (s : Shape) {t : Shape} {i : Nat} (h : i < t.reach) :
    (s.demand t).formalAt? i = (t.formalAt? i).map Ty.unknownToBottom := by
  have length : i < (t.required ++ t.optional ++ t.rest.toList.map some).length := by
    simpa [reach, span, Nat.add_assoc] using h
  have inside : i < ((t.required ++ t.optional ++ t.rest.toList.map some).map
      (Option.map Ty.unknownToBottom)).length := by
    rwa [List.length_map]
  rw [formalAt?, demand_formals, List.getD_eq_getElem _ _ inside, List.getElem_map]
  congr 1
  by_cases own : i < (t.required ++ t.optional).length
  · rw [formalAt?, List.getD_eq_getElem _ _ own, List.getElem_append_left own]
  · have past := Nat.le_of_not_lt own
    rw [formalAt?, List.getD_eq_default _ _ past, List.getElem_append_right past]
    have last : i - (t.required ++ t.optional).length < (t.rest.toList.map some).length := by
      rw [List.length_append] at length
      omega
    obtain ⟨r, hr, eq⟩ := List.mem_map.1 (List.getElem_mem last)
    rw [← eq, Option.mem_toList.1 hr]

/-!
### Fitting a demand
-/

/-- A shape fits a demand by a rule of merging when the merge of the two is the demand: it changes
    neither the number of required arguments nor the number of formals, at each position the formal
    of the shape gives way to that of the demand, and so does its result. -/
structure Fits (rule : MergeRule) (s d : Shape) : Prop where
  required : rule.requiredCount s.required.length d.required.length = d.required.length
  span : s.span ≤ d.span
  formals : ∀ i, i < d.span → Slot.GivesWay rule.formals (s.formalAt? i) (d.formalAt? i)
  result : Slot.GivesWay .join s.result d.result

theorem fits_of_same {s d : Shape} (hs : (Signature.shaped s).Regular) (h : s.same d = true)
    (rule : MergeRule) : s.Fits rule d := by
  obtain ⟨required, span, formals, -, result⟩ := same_iff_formalAt?.1 h
  have slot : ∀ {x y : Slot} (bound : Bound), x ∈ s.slots → Slot.same x y = true →
      Slot.GivesWay bound x y := by
    rintro _ _ bound hx same a b rfl rfl
    exact Ty.givesWay_of_same (hs.slot hx) (by simpa [Slot.same] using same) bound
  refine ⟨?_, span.le, fun i hi => ?_, slot .join s.result_mem_slots result⟩
  · rw [required, rule.requiredCount_self]
  · exact slot rule.formals (s.formalAt?_mem_slots i) (formals i (span ▸ hi))

/-- The merge of a shape with one that takes no further arguments equals the latter when the former
    fits it. -/
theorem same_merge_iff {s d u : Shape} (hs : s.validate = .ok ()) (hd : d.validate = .ok ())
    (rest : d.rest = none) (h : merge .join s d = .ok u) :
    d.same u = true ↔ s.Fits (MergeRule.of .join s d) d := by
  obtain ⟨w, rfl, assembled⟩ := exists_assembled hs hd h
  have further : w.rest = none := Option.not_isSome_iff_eq_none.1 fun present => by
    simpa [rest] using (assembled.rest_of_join present).2
  obtain ⟨c, joined, result⟩ := assembled.result
  rw [MergeRule.results_of_join] at joined
  rw [normalized_of_rest further, same_iff_formalAt?, assembled.required, assembled.span, result,
    Slot.same_combine_iff joined]
  have pooled : ∀ i, i < d.span →
      (Slot.same (d.formalAt? i) (w.formalAt? i) = true ↔
        Slot.GivesWay (MergeRule.of .join s d).formals (s.formalAt? i) (d.formalAt? i)) := by
    intro i hi
    obtain ⟨y, hy⟩ := exists_formalAt? hd hi
    exact (assembled.formals i (by omega)).same_iff (hy ▸ rfl)
  constructor
  · rintro ⟨required, span, same, -, gives⟩
    exact ⟨required.symm, by omega, fun i hi => (pooled i hi).1 (same i hi), gives⟩
  · rintro ⟨required, span, formals, gives⟩
    refine ⟨required.symm, by omega, fun i hi => (pooled i hi).2 (formals i hi), ?_, gives⟩
    rw [rest, further]
    rfl

end Shape

/-!
### The test
-/

/-- No top sentinel is bottom-shaped. -/
theorem Signature.exists_shaped_of_isBottom {f : Signature} (least : f.isBottom = true) :
    ∃ s, f = .shaped s ∧ s.isBottom = true := by
  cases f with
  | top loose => simp [Signature.isBottom, Signature.bottom, Signature.same] at least
  | shaped s => exact ⟨s, rfl, least⟩

/-- What is bottom-shaped gives way in an upper bound, whatever the other operand is. -/
theorem Signature.combine_of_isBottom {f : Signature} (least : f.isBottom = true)
    (g : Signature) : ∃ u, Signature.combine .join f g = .ok u ∧ u.same g = true := by
  obtain ⟨s, rfl, leasts⟩ := Signature.exists_shaped_of_isBottom least
  cases g with
  | top loose => exact ⟨.top _, Signature.combine.eq_3 .join (.shaped s) loose (by simp), rfl⟩
  | shaped t =>
      by_cases gives : (t.isBottom || s.same t) = true
      · have left : Shape.dominant? .join s t = some s := if_pos gives
        refine ⟨.shaped s, Signature.combine_shaped_eq_ok.2 ⟨s, rfl, .inl left⟩, ?_⟩
        rcases (Bool.or_eq_true _ _).mp gives with leastt | same
        · have shapes : s.forget false = t.forget false :=
            ((Shape.same_iff s _).1 leasts).trans ((Shape.same_iff t _).1 leastt).symm
          exact (Shape.same_iff s t).2 shapes
        · exact same
      · have right : Shape.dominant? .join s t = some t := (if_neg gives).trans (if_pos leasts)
        exact ⟨.shaped t, Signature.combine_shaped_eq_ok.2 ⟨t, rfl, .inl right⟩,
          Signature.same_refl _⟩

/-- The least signature stands in for every valid one. -/
theorem Signature.isSubtypeOf_of_isBottom {f g : Signature} (hg : g.validate = .ok ())
    (least : f.isBottom = true) : f.isSubtypeOf g = .ok true := by
  obtain ⟨s, rfl, leasts⟩ := Signature.exists_shaped_of_isBottom least
  cases g with
  | top loose => rw [Signature.isSubtypeOf]
  | shaped t =>
      obtain ⟨required, optional, -, result⟩ := Shape.isBottom_iff_parts.1 leasts
      have hs : s.validate = .ok () :=
        Shape.validate_eq_ok.2 ⟨by simp [required, optional], by rw [result]; rfl⟩
      obtain ⟨u, hu, same⟩ := Signature.combine_of_isBottom least (.shaped (s.demand t))
      rw [Signature.isSubtypeOf_shaped, hs, show t.validate = .ok () from hg]
      simp only [hu]
      exact congrArg Except.ok ((Signature.same_comm _ _).trans same)

/-- A deeply valid shape is a subtype of another one when it is bottom-shaped, equals the demand of
    the other one, or fits it. -/
theorem Signature.isSubtypeOf_iff_same_or_fits {s t : Shape}
    (hs : (Signature.shaped s).DeeplyValid) (ht : (Signature.shaped t).DeeplyValid) :
    (Signature.shaped s).isSubtypeOf (.shaped t) = .ok true ↔
      s.isBottom = true ∨ s.same (s.demand t) = true ∨
        s.Fits (MergeRule.of .join s t) (s.demand t) := by
  have demand := Shape.demand_deeplyValid s ht
  obtain ⟨u, hu, -⟩ := Signature.combine_total .join hs demand
  have holds : (Signature.shaped s).isSubtypeOf (.shaped t) = .ok true ↔
      (Signature.shaped (s.demand t)).same u = true := by
    rw [Signature.isSubtypeOf_shaped, show s.validate = .ok () from hs.own,
      show t.validate = .ok () from ht.own]
    simp only [hu]
    exact ⟨Except.ok.inj, congrArg _⟩
  rw [holds]
  obtain ⟨v, rfl, dominant | ⟨general, merged⟩⟩ := Signature.combine_shaped_eq_ok.1 hu
  · rcases Shape.dominant?_cases dominant with ⟨same, rfl⟩ | ⟨-, ⟨least, -⟩ | ⟨least, rfl⟩⟩
    · rw [Signature.same_comm]
      exact iff_of_true same (.inr (.inl same))
    · simp [Shape.isBottom_of_rest (Shape.demand_rest s t)] at least
    · exact iff_of_true (Signature.same_refl _) (.inl least)
  · obtain ⟨differ, least⟩ := Shape.dominant?_eq_none.1 general
    -- A demand is as loose as the shape that it is made of.
    rw [show MergeRule.of .join s t = MergeRule.of .join s (s.demand t) from rfl, (least rfl).1,
      differ]
    simpa [Signature.same] using
      Shape.same_merge_iff hs.own demand.own (Shape.demand_rest s t) merged

/-- If the shape is regular as well, equal shapes fit: only a class set with repetitions is not its
    own union. -/
theorem Signature.isSubtypeOf_iff_fits {s t : Shape} (hs : (Signature.shaped s).DeeplyValid)
    (regular : (Signature.shaped s).Regular) (ht : (Signature.shaped t).DeeplyValid) :
    (Signature.shaped s).isSubtypeOf (.shaped t) = .ok true ↔
      s.isBottom = true ∨ s.Fits (MergeRule.of .join s t) (s.demand t) := by
  rw [Signature.isSubtypeOf_iff_same_or_fits hs ht]
  constructor
  · rintro (least | same | fits)
    · exact .inl least
    · exact .inr (Shape.fits_of_same regular same _)
    · exact .inr fits
  · exact Or.imp_right .inr

end SignatureLattice
