/-
Module: SignatureLattice.Proofs.LeastSignature
Purpose: The least signature has no constructor of its own. It is a variadic shape and recognised by
  its parts. The shapes that normalizing makes least are those that accept everything at every
  position and never return. The lower bound with such a shape is one again, and an upper bound is
  one only where both operands are, because the top type is the lower bound of no other types and
  the type of no value the upper bound of no other ones.
Main exports: Shape.Boundless, Shape.isBottom_normalized_iff, Shape.exists_meet_boundless,
  Shape.boundless_of_join, Signature.exists_meet_isBottom, Signature.isBottom_join_iff,
  bottom_extremal
-/
import SignatureLattice.Proofs.Overlap

namespace SignatureLattice

open Outcome

/-!
### Extreme bounds of slots
-/

namespace Slot

variable {x y : Slot}

theorem top_of_meet (h : Slot.combine .meet x y = .ok .top) : x = some .top ∧ y = some .top := by
  obtain ⟨a, b, rfl, rfl, hc⟩ := Slot.combine_eq_ok.1 h
  obtain ⟨rfl, rfl⟩ := Ty.top_of_meet hc
  exact ⟨rfl, rfl⟩

theorem bottom_of_join (h : Slot.combine .join x y = .ok .bottom) :
    x = some .bottom ∧ y = some .bottom := by
  obtain ⟨a, b, rfl, rfl, hc⟩ := Slot.combine_eq_ok.1 h
  obtain ⟨rfl, rfl⟩ := Ty.bottom_of_join hc
  exact ⟨rfl, rfl⟩

/-- One slot with the top type suffices for the upper bound of two to be the top type. -/
theorem either_top (h : x = some .top ∨ y = some .top) :
    Slot.either .join x y = .ok (some .top) := by
  match x, y with
  | none, y =>
      obtain rfl : y = some .top := by simpa using h
      simp [Slot.either]
  | some a, none =>
      obtain rfl : a = .top := by simpa using h
      simp [Slot.either]
  | some a, some b =>
      rw [Slot.either, Ty.combine_join_top (h.imp Option.some.inj Option.some.inj)]
      rfl

end Slot

/-!
### Shapes that come to the least one
-/

namespace Shape

variable {s t u : Shape}

/-- A shape is boundless when it requires no argument, accepts one of every type at every position
    and declares that it does not return. It may say so in more words than the least one. -/
structure Boundless (s : Shape) : Prop where
  required : s.required = []
  accepts : ∀ i, s.formalAt? i = some .top
  result : s.result = some .bottom

theorem Boundless.rest (h : s.Boundless) : s.rest = some .top := by
  rw [← formalAt?_of_le (Nat.le_refl s.span), h.accepts]

theorem boundless_of_isBottom (least : s.isBottom = true) : s.Boundless where
  required := (isBottom_iff_parts.1 least).1
  accepts := formalAt?_of_isBottom least
  result := (isBottom_iff_parts.1 least).2.2.2

/-- A stripped shape cannot have an optional formal that its type of further arguments repeats. -/
theorem Boundless.isBottom (h : s.Boundless) (stripped : s.Stripped) : s.isBottom = true := by
  refine isBottom_iff_parts.2 ⟨h.required, ?_, h.rest, h.result⟩
  by_contra nonempty
  have optional : s.required.length < s.span :=
    Nat.lt_add_of_pos_right (List.length_pos_of_ne_nil nonempty)
  have differs := last_ne_rest stripped optional (h.rest ▸ rfl)
  exact differs ((h.accepts _).trans h.rest.symm)

/-- The boundless shapes are those that normalizing makes bottom-shaped. -/
theorem isBottom_normalized_iff : s.normalized.isBottom = true ↔ s.Boundless := by
  have alike : ∀ i, s.normalized.formalAt? i = some .top ↔ s.formalAt? i = some .top := by
    intro i
    have same := (Slot.same_iff _ _).1 (s.formalAt?_normalized i)
    rw [← Slot.same_some_iff Ty.same_top_iff, ← Slot.same_some_iff Ty.same_top_iff, Slot.same_iff,
      Slot.same_iff, same]
  constructor
  · intro least
    obtain ⟨required, accepts, result⟩ := boundless_of_isBottom least
    exact ⟨s.normalized_required ▸ required, fun i => (alike i).1 (accepts i),
      s.normalized_result ▸ result⟩
  · rintro ⟨required, accepts, result⟩
    have boundless : s.normalized.Boundless :=
      ⟨s.normalized_required.trans required, fun i => (alike i).2 (accepts i),
        s.normalized_result.trans result⟩
    exact boundless.isBottom s.normalized_stripped

/-!
### Merges with a boundless shape
-/

/-- What is assembled of top types and a result of no value is boundless, if one of the operands
    requires nothing. -/
theorem boundless_assemble {n : Nat} (required : s.required = [] ∨ t.required = []) :
    ((MergeRule.precise .meet).assemble s t (List.replicate n .top) (some .top) .bottom).Boundless
    where
  required := by
    have count : min s.required.length t.required.length = 0 := by
      rcases required with nil | nil <;> simp [nil]
    simp [MergeRule.assemble, MergeRule.requiredCount, count]
  accepts i := by
    by_cases inside : i < (List.replicate n Ty.top).length
    · rw [MergeRule.assemble_formalAt? inside, List.getElem_replicate]
    · have past := Nat.le_of_not_lt inside
      rw [formalAt?_of_le (MergeRule.assemble_span.trans_le past)]
      rfl
  result := rfl

/-- Whatever a boundless shape is merged with towards the lower bound, every formal becomes the top
    type and the result that of no value. -/
theorem exists_meet_boundless (hs : s.validate = .ok ()) (ht : t.validate = .ok ())
    (precises : s.loose = false) (preciset : t.loose = false)
    (boundless : s.Boundless ∨ t.Boundless) :
    ∃ u, merge .meet s t = .ok u ∧ u.isBottom = true := by
  obtain ⟨a, ha⟩ := exists_result hs
  obtain ⟨b, hb⟩ := exists_result ht
  have valid := (validateForMerge_iff (ha ▸ rfl) (hb ▸ rfl)).2 ⟨hs, ht⟩
  have formals : (MergeRule.precise .meet).mergeFormals s t =
      .ok (List.replicate (max s.span t.span) .top) := by
    refine MergeRule.mergeFormals_eq_ok.2 ⟨List.length_replicate, fun i hi => ?_⟩
    rw [List.getElem_replicate]
    exact Slot.either_top (boundless.imp (·.accepts i) (·.accepts i))
  have rest : (MergeRule.precise .meet).mergeRest s.rest t.rest = .ok (some .top) :=
    Slot.either_top (boundless.imp (·.rest) (·.rest))
  have result : Slot.combine .meet s.result t.result = .ok .bottom := by
    refine Slot.combine_eq_ok.2 ⟨a, b, ha, hb, Ty.combine_meet_bottom ?_⟩
    exact boundless.imp (fun h => Option.some.inj (ha.symm.trans h.result))
      (fun h => Option.some.inj (hb.symm.trans h.result))
  refine ⟨_, ?_, isBottom_normalized_iff.2 (boundless_assemble (n := max s.span t.span)
    (boundless.imp (·.required) (·.required)))⟩
  rw [merge_eq_ok, MergeRule.of_precise .meet precises preciset]
  exact ⟨valid, _, _, _, formals, rest, result, rfl⟩

/-- What is assembled of two shapes towards the upper bound is boundless only if both of them are:
    where both demand something, only two top types have the top type as lower bound. -/
theorem Assembled.boundless {w : Shape} (assembled : Assembled (.precise .join) s t w)
    (hs : s.validate = .ok ()) (ht : t.validate = .ok ()) (boundless : w.Boundless) :
    s.Boundless ∧ t.Boundless := by
  have further := MergeRule.mergeRest_precise.1 assembled.rest
  rw [boundless.rest] at further
  obtain ⟨rests, restt⟩ := Slot.top_of_meet (Slot.Shared.combine_eq further)
  have accepts : ∀ i, s.formalAt? i = some .top ∧ t.formalAt? i = some .top := by
    intro i
    by_cases inside : i < max s.span t.span
    · have pooled := assembled.formals i inside
      rw [boundless.accepts] at pooled
      exact Slot.top_of_meet (pooled.combine_eq (isSome_formalAt?_of_rest hs (rests ▸ rfl) i)
        (isSome_formalAt?_of_rest ht (restt ▸ rfl) i))
    · rw [formalAt?_of_le (by omega), formalAt?_of_le (by omega)]
      exact ⟨rests, restt⟩
  have results : s.result = some .bottom ∧ t.result = some .bottom := by
    obtain ⟨c, hc, result⟩ := assembled.result
    obtain rfl := Option.some.inj (result.symm.trans boundless.result)
    exact Slot.bottom_of_join hc
  have required : max s.required.length t.required.length = 0 := by
    have count : w.required.length = max s.required.length t.required.length := assembled.required
    rw [← count, boundless.required]
    rfl
  exact ⟨⟨List.eq_nil_of_length_eq_zero (by omega), fun i => (accepts i).1, results.1⟩,
    ⟨List.eq_nil_of_length_eq_zero (by omega), fun i => (accepts i).2, results.2⟩⟩

/-- Only of two boundless shapes is the merge towards the upper bound bottom-shaped. -/
theorem boundless_of_join (h : merge .join s t = .ok u) (least : u.isBottom = true) :
    s.Boundless ∧ t.Boundless := by
  have variadic : u.rest.isSome := by rw [(isBottom_iff_parts.1 least).2.2.1]; rfl
  have rule := precise_of_rest h variadic
  obtain ⟨hs, ht⟩ := validates_of_merge rule h
  obtain ⟨w, rfl, assembled⟩ := exists_assembled hs ht h
  rw [rule] at assembled
  exact assembled.boundless hs ht (isBottom_normalized_iff.1 least)

end Shape

/-!
### Bounds with the least signature
-/

namespace Signature

variable {f g u : Signature}

/-- What is bottom-shaped gives way on the right exactly. -/
theorem combine_isBottom_right (f : Signature) (least : g.isBottom = true) :
    Signature.combine .join f g = .ok f := by
  cases f with
  | top loose => simp [Signature.combine, Bound.pick, least]
  | shaped s =>
      obtain ⟨t, rfl, leastt⟩ := exists_shaped_of_isBottom least
      have left : Shape.dominant? .join s t = some s := if_pos (by rw [leastt]; rfl)
      exact combine_shaped_eq_ok.2 ⟨s, rfl, .inl left⟩

theorem isBottom_congr (h : f.same g = true) : f.isBottom = g.isBottom := by
  rw [same_iff] at h
  rw [Bool.eq_iff_iff, isBottom, isBottom, same_iff, same_iff, h]

/-- A lower bound of two valid precise signatures is bottom-shaped as soon as one of them is. -/
theorem exists_meet_isBottom (hf : f.validate = .ok ()) (hg : g.validate = .ok ())
    (precisef : f.isLoose = false) (preciseg : g.isLoose = false)
    (least : f.isBottom = true ∨ g.isBottom = true) :
    ∃ u, Signature.combine .meet f g = .ok u ∧ u.isBottom = true := by
  match f, g with
  | .top loose, g =>
      refine ⟨g, Signature.combine.eq_2 .meet g loose, least.resolve_left fun absurd => ?_⟩
      simpa using exists_shaped_of_isBottom absurd
  | .shaped s, .top loose =>
      refine ⟨.shaped s, Signature.combine.eq_3 .meet (.shaped s) loose (by simp),
        least.resolve_right fun absurd => ?_⟩
      simpa using exists_shaped_of_isBottom absurd
  | .shaped s, .shaped t =>
      by_cases same : s.same t = true
      · have alike : (Signature.shaped s).isBottom = (Signature.shaped t).isBottom :=
          isBottom_congr same
        obtain ⟨u, hu, equal⟩ := combine_of_same .meet (f := .shaped s) (g := .shaped t) same
        exact ⟨u, hu, (isBottom_congr equal).trans (least.elim alike.symm.trans id)⟩
      · have neither : Shape.dominant? .meet s t = none := if_neg same
        obtain ⟨u, hu, leastu⟩ := Shape.exists_meet_boundless hf hg precisef preciseg
          (least.imp Shape.boundless_of_isBottom Shape.boundless_of_isBottom)
        exact ⟨.shaped u, combine_shaped_eq_ok.2 ⟨u, rfl, .inr ⟨neither, hu⟩⟩, leastu⟩

/-- An upper bound of two stripped signatures is bottom-shaped when both of them are. -/
theorem isBottom_join_iff (hf : f.Stripped) (hg : g.Stripped)
    (h : Signature.combine .join f g = .ok u) :
    u.isBottom = true ↔ f.isBottom = true ∧ g.isBottom = true := by
  constructor
  · intro least
    obtain ⟨v, rfl, leastv⟩ := exists_shaped_of_isBottom least
    match f, g with
    | .top loose, g => simp [Signature.combine, Bound.pick] at h
    | .shaped s, .top loose => simp [Signature.combine, Bound.pick] at h
    | .shaped s, .shaped t =>
        obtain ⟨w, ⟨⟩, dominant | ⟨-, merged⟩⟩ := combine_shaped_eq_ok.1 h
        · rcases Shape.dominant?_cases dominant with
            ⟨same, rfl⟩ | ⟨-, ⟨leastt, rfl⟩ | ⟨leasts, rfl⟩⟩
          · have alike : (Signature.shaped v).isBottom = (Signature.shaped t).isBottom :=
              isBottom_congr same
            exact ⟨leastv, alike ▸ leastv⟩
          · exact ⟨leastv, leastt⟩
          · exact ⟨leasts, leastv⟩
        · obtain ⟨boundlesss, boundlesst⟩ := Shape.boundless_of_join merged leastv
          exact ⟨boundlesss.isBottom hf, boundlesst.isBottom hg⟩
  · rintro ⟨leastf, leastg⟩
    obtain rfl := Except.ok.inj ((combine_isBottom_right f leastg).symm.trans h)
    exact leastf

end Signature

/-!
### Main theorem
-/

/-- The least signature is the extremal one. It is the neutral operand of an upper bound, whatever
    the other operand is. The lower bound of it and a valid precise signature is bottom-shaped, and
    it is a subtype of every valid signature. The upper bound of two signatures as they are built,
    which means stripped, is bottom-shaped only if both of them are. -/
theorem bottom_extremal :
    (∀ f : Signature, Callable.join (some f) (some .bottom) = .ok (some f) ∧
      ∃ u : Signature, Callable.join (some .bottom) (some f) = .ok (some u) ∧ u.same f = true) ∧
    (∀ f : Signature, f.validate = .ok () → f.isLoose = false →
      (∃ u : Signature, Callable.meet (some f) (some .bottom) = .ok (some u) ∧
        u.isBottom = true) ∧
      ∃ u : Signature, Callable.meet (some .bottom) (some f) = .ok (some u) ∧
        u.isBottom = true) ∧
    (∀ g : Signature, g.validate = .ok () → Signature.bottom.isSubtypeOf g = .ok true) ∧
    ∀ f g u : Signature, f.Stripped → g.Stripped →
      Callable.join (some f) (some g) = .ok (some u) →
      (u.isBottom = true ↔ f.isBottom = true ∧ g.isBottom = true) := by
  have least : Signature.bottom.isBottom = true := rfl
  have valid : Signature.bottom.validate = .ok () := rfl
  refine ⟨fun f => ⟨?_, ?_⟩, fun f hf precise => ⟨?_, ?_⟩, fun g hg => ?_, fun f g u hf hg h => ?_⟩
  · exact Callable.combine_some.2 (Signature.combine_isBottom_right f least)
  · obtain ⟨u, hu, same⟩ := Signature.combine_of_isBottom least f
    exact ⟨u, Callable.combine_some.2 hu, same⟩
  · obtain ⟨u, hu, leastu⟩ := Signature.exists_meet_isBottom hf valid precise rfl (.inr least)
    exact ⟨u, Callable.combine_some.2 hu, leastu⟩
  · obtain ⟨u, hu, leastu⟩ := Signature.exists_meet_isBottom valid hf rfl precise (.inl least)
    exact ⟨u, Callable.combine_some.2 hu, leastu⟩
  · exact Signature.isSubtypeOf_of_isBottom hg least
  · exact Signature.isBottom_join_iff hf hg (Callable.combine_some.1 h)

/-- The theorem at a loose signature that lacks a formal and a result, at a variadic constructor
    that takes functions, at a signature that accepts everything but returns, and at a loose one
    that does not. -/
theorem bottom_extremal_variadic :
    let lacking : Signature := .shaped
      { required := [none], rest := some .unknown, loose := true }
    let f : Signature := .shaped
      { required := [some .unknown, some (.callableOf .bottom)], optional := [some .top],
        rest := some (.callableOf (.top true)), result := some .unknown, owner := some ⟨"Foo", 0⟩ }
    let g : Signature := .shaped { rest := some .top, result := some (.callableOf .bottom) }
    let h : Signature := .shaped { rest := some .top, result := some .bottom, loose := true }
    Callable.join (some lacking) (some .bottom) = .ok (some lacking) ∧
      (∃ u : Signature, Callable.meet (some f) (some .bottom) = .ok (some u) ∧
        u.isBottom = true) ∧
      Signature.bottom.isSubtypeOf f = .ok true ∧
      (∀ u : Signature, Callable.join (some g) (some f) = .ok (some u) → u.isBottom = false) ∧
      ∀ u : Signature, Callable.join (some h) (some .bottom) = .ok (some u) →
        u.isBottom = true := by
  intro lacking f g h
  obtain ⟨neutral, absorbing, below, recognised⟩ := bottom_extremal
  refine ⟨(neutral lacking).1, (absorbing f rfl rfl).1, below f rfl, fun u hu => ?_, fun u hu => ?_⟩
  · rw [Bool.eq_false_iff]
    intro least
    have both := (recognised g f u (by decide) (by decide) hu).1 least
    exact absurd both.1 (by decide)
  · exact (recognised h .bottom u (by decide) (by decide) hu).2 ⟨rfl, rfl⟩

end SignatureLattice
