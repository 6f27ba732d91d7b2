/-
Module: SignatureLattice.Proofs.Demand
Purpose: The form of a signature that a subtype test measures against. It is made of the slots of
  the signature and of types that nest nothing, so it keeps every hereditary property. For precise
  signatures the test holds exactly when the upper bound with that form is the form itself, computed
  on what is left of both.
Main exports: Shape.demand, Signature.isSubtypeOf_shaped, Shape.mem_slots_demand,
  Shape.validate_demand, Signature.All.demand, Signature.Definite.demand, Signature.isSubtypeOf_iff
-/
import SignatureLattice.Proofs.Exact
import SignatureLattice.Subtyping

namespace SignatureLattice

theorem Shape.exists_returned {s : Shape} (valid : s.validate = .ok ()) :
    ∃ t, s.returned = some t := by
  unfold Shape.returned
  cases s.owner with
  | none => exact Shape.exists_result valid
  | some c => exact ⟨_, rfl⟩

/-- What a call yields is the declared result or an instance of the constructed class. -/
theorem Shape.returned_cases {s : Shape} {t : Ty} (h : s.returned = some t) :
    some t ∈ s.slots ∨ ∃ c, t = .instanceOf c := by
  unfold Shape.returned at h
  cases owner : s.owner with
  | none =>
      rw [owner] at h
      exact .inl (h ▸ s.result_mem_slots)
  | some c =>
      rw [owner] at h
      exact .inr ⟨c, (Option.some.inj h).symm⟩

theorem Shape.returned_deeplyValid {s : Shape} {t : Ty} (h : (Signature.shaped s).DeeplyValid)
    (ht : s.returned = some t) : t.DeeplyValid := by
  rcases Shape.returned_cases ht with ht | ⟨c, rfl⟩
  · exact h.slot ht
  · exact Ty.deeplyValid_instanceOf c

/-!
### The draft of a demand
-/

/-- The form of `t` that `s` is measured against, put together of all that is stated of it. -/
def Shape.demand (s t : Shape) : Shape where
  required := t.required.map (Option.map Ty.unknownToBottom)
  optional := (t.optional ++ t.rest.toList.map some).map (Option.map Ty.unknownToBottom)
  result := if s.returned.any Ty.isUnknown then some .unknown else t.returned
  loose := t.loose

/-- What is stated of a demand comes in the order of a finished signature, so no draft refuses it,
    and since nothing is said of further arguments the draft is read as it stands. -/
theorem Shape.accept_demandSteps (s t : Shape) :
    ∃ d, Draft.accept {} (s.demandSteps t) = .ok d ∧ d.build = s.demand t := by
  have required : t.required.map (fun x => Draft.Step.required (x.map Ty.unknownToBottom)) =
      (t.required.map (Option.map Ty.unknownToBottom)).map .required := by
    rw [List.map_map]
    rfl
  have optional : t.optional.map (fun x => Draft.Step.optional (x.map Ty.unknownToBottom))
        ++ t.rest.toList.map (fun r => Draft.Step.optional (some r.unknownToBottom)) =
      ((t.optional ++ t.rest.toList.map some).map (Option.map Ty.unknownToBottom)).map
        .optional := by
    simp [Function.comp_def]
  let formals : Draft := { required := (s.demand t).required, optional := (s.demand t).optional }
  have accepted : Draft.accept {} (s.demandSteps t) =
      .ok { formals with result := some (s.demand t).result, loose := t.loose } := by
    rw [demandSteps, required, List.append_assoc (List.map _ _), optional, Draft.accept_append,
      Draft.accept_append, Draft.accept_append, Draft.accept_required {} _ ⟨rfl, rfl⟩]
    simp only [bind, Except.bind]
    rw [Draft.accept_optional _ _ rfl]
    cases t.loose <;>
      simp [Draft.accept, Draft.step, formals, demand, pure, Except.pure, bind, Except.bind]
  exact ⟨_, accepted, Shape.normalized_of_rest rfl⟩

/-- The subtype test of two shapes compares with their demand. -/
theorem Signature.isSubtypeOf_shaped (s t : Shape) :
    (Signature.shaped s).isSubtypeOf (.shaped t) = (do
      s.validate
      t.validate
      let demand := Signature.shaped (s.demand t)
      demand.same <$> Signature.combine .join (.shaped s) demand) := by
  obtain ⟨d, accepted, built⟩ := s.accept_demandSteps t
  rw [Signature.isSubtypeOf, accepted, ← built]
  rfl

/-!
### The parts of a demand
-/

/-- The formals of a demand are the formals of the shape and its type of further arguments. -/
theorem Shape.demand_formals (s t : Shape) :
    (s.demand t).required ++ (s.demand t).optional =
      (t.required ++ t.optional ++ t.rest.toList.map some).map (Option.map Ty.unknownToBottom) := by
  simp [Shape.demand]

/-- A formal of a demand is read off a slot of the shape. -/
theorem Shape.mem_demand_formals {s t : Shape} {x : Slot}
    (h : x ∈ (s.demand t).required ++ (s.demand t).optional) :
    ∃ y ∈ t.slots, x = y.map Ty.unknownToBottom ∧
      (y ∈ t.required ++ t.optional ∨ y.isSome) := by
  rw [Shape.demand_formals] at h
  obtain ⟨y, hy, rfl⟩ := List.mem_map.1 h
  rcases List.mem_append.1 hy with hy | hy
  · exact ⟨y, Shape.mem_slots.2 (.inl hy), rfl, .inl hy⟩
  · obtain ⟨u, hu, rfl⟩ := List.mem_map.1 hy
    exact ⟨some u, Shape.mem_slots.2 (.inr (.inl (Option.mem_toList.1 hu).symm)), rfl, .inr rfl⟩

/-- What a slot of a demand holds is in a slot of the shape, or it is one of three types that nest
    nothing. -/
theorem Shape.mem_slots_demand {s t : Shape} {v : Ty} (h : some v ∈ (s.demand t).slots) :
    some v ∈ t.slots ∨ v = .bottom ∨ v = .unknown ∨ ∃ c, v = .instanceOf c := by
  rcases Shape.mem_slots.1 h with h | h | h
  · obtain ⟨y, hy, image, -⟩ := Shape.mem_demand_formals h
    obtain ⟨u, rfl, rfl⟩ := Option.map_eq_some_iff.1 image.symm
    unfold Ty.unknownToBottom
    split
    · exact .inr (.inl rfl)
    · exact .inl hy
  · simp [Shape.demand] at h
  · simp only [Shape.demand] at h
    split at h
    · exact .inr (.inr (.inl (Option.some.inj h)))
    · rcases Shape.returned_cases h.symm with h | h
      · exact .inl h
      · exact .inr (.inr (.inr h))

theorem Shape.validate_demand (s : Shape) {t : Shape} (valid : t.validate = .ok ()) :
    (s.demand t).validate = .ok () := by
  refine Shape.validate_eq_ok.2 ⟨fun x hx => ?_, ?_⟩
  · obtain ⟨y, -, rfl, here⟩ := Shape.mem_demand_formals hx
    rw [Option.isSome_map]
    exact here.elim ((Shape.validate_eq_ok.1 valid).1 y) id
  · obtain ⟨u, hu⟩ := Shape.exists_returned valid
    simp only [Shape.demand]
    split
    · rfl
    · rw [hu]
      rfl

/-- A demand has a hereditary property of the shape if it has the property itself. -/
theorem Signature.All.demand {C : ClassSet → Prop} {Q : Signature → Prop} {s t : Shape}
    (nil : C []) (singleton : ∀ c, C [c]) (own : Q (.shaped (s.demand t)))
    (ht : (Signature.shaped t).All C Q) : (Signature.shaped (s.demand t)).All C Q := by
  refine Signature.all_iff.2 ⟨own, fun v hv => ?_⟩
  rcases Shape.mem_slots_demand hv with hv | rfl | rfl | ⟨c, rfl⟩
  · exact ht.slot hv
  · exact Ty.all_union.2 ⟨nil, by simp⟩
  · exact Ty.all_unknown nil
  · exact Ty.all_union.2 ⟨singleton c, by simp⟩

theorem Shape.demand_deeplyValid (s : Shape) {t : Shape} (ht : (Signature.shaped t).DeeplyValid) :
    (Signature.shaped (s.demand t)).DeeplyValid :=
  ht.demand trivial (fun _ => trivial) (s.validate_demand ht.own)

theorem Signature.Definite.demand {s t : Shape} (ht : (Signature.shaped t).Definite) :
    (Signature.shaped (s.demand t)).Definite where
  valid := s.demand_deeplyValid ht.valid
  regular := ht.regular.demand ClassSet.canonical_nil ClassSet.canonical_singleton
    (Shape.stripped_iff.2 fun rest => by simp [Shape.demand] at rest)
  precise := ht.precise.demand trivial (fun _ => trivial) ht.precise.own

/-!
### The test
-/

/-- The demand looks at the first shape only to see whether it knows its result. -/
theorem Shape.demand_congr {s t : Shape}
    (h : s.returned.any Ty.isUnknown = t.returned.any Ty.isUnknown) (u : Shape) :
    s.demand u = t.demand u := by
  rw [Shape.demand, Shape.demand, h]

/-- The subtype test of two valid shapes, read on what is left of them. -/
theorem Signature.isSubtypeOf_iff {s t : Shape} (hs : (Signature.shaped s).Definite)
    (ht : (Signature.shaped t).Definite) :
    (Signature.shaped s).isSubtypeOf (.shaped t) = .ok true ↔
      Signature.bound .join ((Signature.shaped s).forget true)
          ((Signature.shaped (s.demand t)).forget true) =
        (Signature.shaped (s.demand t)).forget true := by
  have demand : (Signature.shaped (s.demand t)).Definite := ht.demand
  have holds : (Signature.shaped s).isSubtypeOf (.shaped t) = .ok true ↔
      (Signature.shaped (s.demand t)).same
        (Signature.bound .join (.shaped s) (.shaped (s.demand t))) = true := by
    rw [Signature.isSubtypeOf_shaped, show s.validate = .ok () from hs.valid.own,
      show t.validate = .ok () from ht.valid.own]
    simp only [Signature.combine_eq_bound .join hs.valid demand.valid]
    exact ⟨Except.ok.inj, congrArg _⟩
  rw [holds, ← Signature.same_forget true true,
    Signature.forget_bound .join hs.valid demand.valid,
    Signature.same_iff_eq demand.exact (Signature.exact_bound .join hs.exact demand.exact), eq_comm]

end SignatureLattice
