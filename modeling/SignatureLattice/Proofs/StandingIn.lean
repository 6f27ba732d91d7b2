/-
Module: SignatureLattice.Proofs.StandingIn
Purpose: The subtype test between concrete signatures, which construct no class, know all their own
  parts and are precise throughout. A shape stands in for another one when it requires no more
  arguments, has no formal past the reach of the other, accepts at each position what the other one
  accepts and returns nothing else. What equality passes over plays no part in it, so that the
  comparison can be made on exact shapes.
Main exports: Signature.Concrete, Shape.StandsIn, Shape.standsIn_forget,
  Shape.conforms_iff_standsIn, Signature.isSubtypeOf_iff_standsIn
-/
import SignatureLattice.Proofs.LeastUpperBound
import SignatureLattice.Proofs.Variance

namespace SignatureLattice

/-!
### Standing in
-/

/-- A signature is concrete when it is definite, constructs no class and has no part of unknown
    type. What is nested deeper may construct classes and be unknown. -/
structure Signature.Concrete (f : Signature) : Prop where
  definite : f.Definite
  known : f.Known

instance (f : Signature) : Decidable f.Known :=
  decidable_of_iff (f.owner? = none ∧ f.slots.all (fun x => !x.any Ty.isUnknown) = true) <| by
    have unknown : ∀ x : Slot, x.any Ty.isUnknown = false ↔ x ≠ some .unknown := by
      rintro (_ | (_ | _ | _)) <;> simp [Ty.isUnknown]
    simp only [List.all_eq_true, Bool.not_eq_true', unknown]
    exact ⟨fun ⟨owner, slots⟩ => ⟨owner, fun mem => slots _ mem rfl⟩,
      fun ⟨owner, slots⟩ => ⟨owner, fun x hx eq => slots (eq ▸ hx)⟩⟩

instance (f : Signature) : Decidable f.Concrete :=
  decidable_of_iff (f.DeeplyValid ∧ f.Regular ∧ f.DeeplyPrecise ∧ f.Known)
    ⟨fun ⟨valid, regular, precise, known⟩ => ⟨⟨valid, regular, precise⟩, known⟩,
      fun ⟨⟨valid, regular, precise⟩, known⟩ => ⟨valid, regular, precise, known⟩⟩

namespace Shape

/-- A shape stands in for another one when it requires no more arguments, has no formal past the
    reach of the other one, and gives way to it at each position within that reach and in the
    result. -/
structure StandsIn (s t : Shape) : Prop where
  required : s.required.length ≤ t.required.length
  span : s.span ≤ t.reach
  formals : ∀ i, i < t.reach → Slot.GivesWay .meet (s.formalAt? i) (t.formalAt? i)
  result : Slot.GivesWay .join s.result t.result

@[simp] theorem forget_reach {keep : Bool} (s : Shape) : (s.forget keep).reach = s.reach := by
  cases rest : s.rest <;> simp [reach, rest]

theorem standsIn_forget {s t : Shape} :
    (s.forget true).StandsIn (t.forget true) ↔ s.StandsIn t := by
  have formals : (∀ i, i < t.reach → Slot.GivesWay .meet ((s.forget true).formalAt? i)
      ((t.forget true).formalAt? i)) ↔
      ∀ i, i < t.reach → Slot.GivesWay .meet (s.formalAt? i) (t.formalAt? i) := by
    simp only [forget_formalAt?, Slot.givesWay_forget]
  constructor
  · intro h
    refine ⟨?_, ?_, formals.1 fun i hi => h.formals i (by rwa [forget_reach]), ?_⟩
    · simpa using h.required
    · simpa using h.span
    · simpa [Slot.givesWay_forget] using h.result
  · intro h
    refine ⟨?_, ?_, fun i hi => formals.2 h.formals i (by rwa [forget_reach] at hi), ?_⟩
    · simpa using h.required
    · simpa using h.span
    · simpa [Slot.givesWay_forget] using h.result

/-- Of a known shape nothing is expected but what it demands. -/
theorem expected_of_known {t : Shape} (ht : (Signature.shaped t).Known) {i : Nat}
    (h : i < t.reach) : t.expected[i]? = some (t.formalAt? i) := by
  rw [getElem?_expected t h, demand_formalAt? t h]
  cases here : t.formalAt? i with
  | none => rfl
  | some a =>
      have known : a ≠ .unknown := fun unknown =>
        ht.slots (unknown ▸ here ▸ t.formalAt?_mem_slots i)
      rw [Option.map_some, Ty.unknownToBottom_of_ne known]

/-- Between known shapes conforming is standing in. -/
theorem conforms_iff_standsIn {s t : Shape} (valids : s.validate = .ok ())
    (validt : t.validate = .ok ()) (hs : (Signature.shaped s).Known)
    (ht : (Signature.shaped t).Known) : s.Conforms t ↔ s.StandsIn t := by
  have plains := returned_of_plain (s := s) hs.owner
  have plaint := returned_of_plain (s := t) ht.owner
  constructor
  · rintro ⟨required, span, formals, a, b, ha, hb, gives⟩
    rw [length_expected] at span
    refine ⟨required, span, fun i hi x y hx hy => ?_, fun x y hx hy => ?_⟩
    · exact formals i x y hx ((expected_of_known ht hi).trans (congrArg some hy))
    · obtain rfl := Option.some.inj (ha.symm.trans (plains.trans hx))
      obtain rfl := Option.some.inj (hb.symm.trans (plaint.trans hy))
      have known : a ≠ .unknown := fun unknown =>
        hs.slots (unknown ▸ hx ▸ s.result_mem_slots)
      exact gives.resolve_left known
  · rintro ⟨required, span, formals, result⟩
    obtain ⟨a, ha⟩ := exists_result valids
    obtain ⟨b, hb⟩ := exists_result validt
    refine ⟨required, by rwa [length_expected], fun i x y hx hy => ?_, a, b, plains.trans ha,
      plaint.trans hb, .inr (result a b ha hb)⟩
    have inside := lt_reach_of_expected hy
    rw [expected_of_known ht inside] at hy
    exact formals i inside x y hx (Option.some.inj hy)

end Shape

/-- A concrete shape is a subtype of another one when it stands in for it. -/
theorem Signature.isSubtypeOf_iff_standsIn {s t : Shape} (hs : (Signature.shaped s).Concrete)
    (ht : (Signature.shaped t).Concrete) :
    (Signature.shaped s).isSubtypeOf (.shaped t) = .ok true ↔ s.StandsIn t := by
  rw [Signature.isSubtypeOf_iff_of_plain hs.definite.valid ht.definite.valid hs.definite.regular
    hs.definite.precise.own ht.definite.precise.own hs.known.owner]
  exact Shape.conforms_iff_standsIn hs.definite.valid.own ht.definite.valid.own hs.known ht.known

end SignatureLattice
