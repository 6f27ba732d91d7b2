/-
Module: SignatureLattice.Proofs.Validity
Purpose: Signatures that are valid at every depth. Where both operands are, a bound exists, because
  a position that is merged has a formal on one side at least, and the bound is valid at every depth
  again.
Main exports: Signature.DeeplyValid, Ty.DeeplyValid, Shape.validate_eq_ok,
  Shape.validateForMerge_iff, Shape.validate_of_merge, Ty.combine_total, Signature.combine_total
-/
import SignatureLattice.Proofs.Merging

namespace SignatureLattice

open Outcome

/-- A signature is deeply valid when it passes its check and so does every signature nested in its
    formals, its type of further arguments and its result. -/
abbrev Signature.DeeplyValid (f : Signature) : Prop :=
  f.All (fun _ => True) fun g => g.validate = .ok ()

/-- A type is deeply valid when every signature nested in it passes its check. -/
abbrev Ty.DeeplyValid (t : Ty) : Prop :=
  t.All (fun _ => True) fun g => g.validate = .ok ()

/-!
### What a check says
-/

theorem Shape.validate_eq_ok {s : Shape} :
    s.validate = .ok () ↔ (∀ x ∈ s.required ++ s.optional, x.isSome) ∧ s.result.isSome := by
  have some_of : ∀ l : List Slot, l.any Option.isNone = false ↔ ∀ x ∈ l, x.isSome := by
    intro l; simp [List.any_eq_false, Option.isSome_iff_ne_none]
  rw [List.forall_mem_append, ← some_of, ← some_of]
  unfold Shape.validate
  cases s.required.any Option.isNone <;> cases s.optional.any Option.isNone <;>
    cases s.result <;> simp [bind, Except.bind, pure, Except.pure, throw, throwThe,
      MonadExceptOf.throw]

/-- A valid shape demands something at each position that its formals cover. -/
theorem Shape.exists_formalAt? {s : Shape} (valid : s.validate = .ok ()) {i : Nat}
    (h : i < s.span) : ∃ t, s.formalAt? i = some t := by
  have hi : i < (s.required ++ s.optional).length := by simpa [Shape.span] using h
  have here := (Shape.validate_eq_ok.1 valid).1 _ (List.getElem_mem hi)
  rw [Shape.formalAt?, List.getD_eq_getElem?_getD, List.getElem?_eq_getElem hi]
  exact Option.isSome_iff_exists.1 here

/-- Of two valid shapes one demands something at each position that the longer one covers. -/
theorem Shape.isSome_formalAt?_of_lt_max {s t : Shape} (hs : s.validate = .ok ())
    (ht : t.validate = .ok ()) {i : Nat} (h : i < max s.span t.span) :
    (s.formalAt? i).isSome ∨ (t.formalAt? i).isSome := by
  have covered : i < s.span ∨ i < t.span := by omega
  rcases covered with inside | inside
  · exact .inl (Option.isSome_iff_exists.2 (Shape.exists_formalAt? hs inside))
  · exact .inr (Option.isSome_iff_exists.2 (Shape.exists_formalAt? ht inside))

theorem Shape.exists_result {s : Shape} (valid : s.validate = .ok ()) :
    ∃ t, s.result = some t :=
  Option.isSome_iff_exists.1 (Shape.validate_eq_ok.1 valid).2

/-- Two shapes with a result may be merged just when both are valid: where there is no position to
    merge, a result is all that a check asks for. -/
theorem Shape.validateForMerge_iff {s t : Shape} (hs : s.result.isSome) (ht : t.result.isSome) :
    Shape.validateForMerge s t = .ok () ↔ s.validate = .ok () ∧ t.validate = .ok () := by
  unfold Shape.validateForMerge
  split
  · rename_i empty
    have bare : ∀ {u : Shape}, u.span = 0 → u.result.isSome → u.validate = .ok () := by
      intro u none result
      have nothing : u.required ++ u.optional = [] :=
        List.eq_nil_of_length_eq_zero ((List.length_append).trans none)
      exact Shape.validate_eq_ok.2 ⟨by simp [nothing], result⟩
    exact iff_of_true rfl ⟨bare (by omega) hs, bare (by omega) ht⟩
  · rw [bind_eq_ok]
    exact ⟨fun ⟨_, right, left⟩ => ⟨left, right⟩, fun ⟨left, right⟩ => ⟨(), right, left⟩⟩

/-- Normalizing drops formals that are there, so what is left is valid as well. -/
theorem Shape.validate_normalized {s : Shape} (valid : s.validate = .ok ()) :
    s.normalized.validate = .ok () := by
  obtain ⟨present, result⟩ := Shape.validate_eq_ok.1 valid
  obtain ⟨optional, kept, eq⟩ := s.normalized_eq
  rw [eq, Shape.validate_eq_ok]
  refine ⟨fun x hx => present x ?_, result⟩
  rcases List.mem_append.1 hx with hx | hx
  · exact List.mem_append_left _ hx
  · exact List.mem_append_right _ (kept.subset hx)

/-- Whatever was merged, the outcome has all its formals and a result. -/
theorem Shape.validate_of_merge {bound : Bound} {s t u : Shape}
    (h : Shape.merge bound s t = .ok u) : u.validate = .ok () := by
  obtain ⟨-, formals, rest, result, -, -, -, rfl⟩ := Shape.merge_eq_ok.1 h
  apply Shape.validate_normalized
  rw [Shape.validate_eq_ok, MergeRule.assemble_formals]
  refine ⟨fun x hx => ?_, rfl⟩
  obtain ⟨v, -, rfl⟩ := List.mem_map.1 hx
  rfl

/-- Deep validity is inherited by bounds. -/
theorem Inherited.validity : Inherited (fun _ => True) fun g => g.validate = .ok () where
  union _ _ := trivial
  inter _ _ := trivial
  top _ _ := rfl
  merge _ _ h := Shape.validate_of_merge h

theorem Ty.deeplyValid_bottom : Ty.bottom.DeeplyValid :=
  Ty.all_union.2 ⟨trivial, by simp⟩

theorem Ty.deeplyValid_instanceOf (c : NamedClass) : (Ty.instanceOf c).DeeplyValid :=
  Ty.all_union.2 ⟨trivial, by simp⟩

/-!
### Bounds exist
-/

private def Bounded (a b : Ty) : Prop :=
  a.DeeplyValid → b.DeeplyValid → ∀ bound, ∃ z, Ty.combine bound a b = .ok z

private theorem Slot.either_total {bound : Bound} {x y : Slot}
    (ih : ∀ a, x = some a → ∀ b, Bounded a b) (hx : ∀ a, x = some a → a.DeeplyValid)
    (hy : ∀ b, y = some b → b.DeeplyValid) :
    ∃ z, Slot.either bound x y = .ok z ∧ (x.isSome ∨ y.isSome → z.isSome) := by
  cases x with
  | none => exact ⟨y, by simp [Slot.either], by simp⟩
  | some a =>
      cases y with
      | none => exact ⟨some a, by simp [Slot.either], by simp⟩
      | some b =>
          obtain ⟨z, hz⟩ := ih a rfl b (hx a rfl) (hy b rfl) bound
          exact ⟨some z, by rw [Slot.either, hz]; rfl, fun _ => rfl⟩

private theorem Slot.both_total {bound : Bound} {x y : Slot}
    (ih : ∀ a, x = some a → ∀ b, Bounded a b) (hx : ∀ a, x = some a → a.DeeplyValid)
    (hy : ∀ b, y = some b → b.DeeplyValid) :
    ∃ z, Slot.both bound x y = .ok z ∧ (x.isSome ∧ y.isSome → z.isSome) := by
  cases x with
  | none => exact ⟨none, by simp [Slot.both], by simp⟩
  | some a =>
      cases y with
      | none => exact ⟨none, by simp [Slot.both], by simp⟩
      | some b =>
          obtain ⟨z, hz⟩ := ih a rfl b (hx a rfl) (hy b rfl) bound
          exact ⟨some z, by rw [Slot.both, hz]; rfl, fun _ => rfl⟩

private theorem Shape.merge_total (bound : Bound) {s t : Shape}
    (ih : ∀ a, some a ∈ s.slots → ∀ b, Bounded a b) (hs : (Signature.shaped s).DeeplyValid)
    (ht : (Signature.shaped t).DeeplyValid) : ∃ u, Shape.merge bound s t = .ok u := by
  have valid_s : s.validate = .ok () := hs.own
  have valid_t : t.validate = .ok () := ht.own
  have either : ∀ {x y : Slot} (bound : Bound), x ∈ s.slots → y ∈ t.slots →
      ∃ z, Slot.either bound x y = .ok z ∧ (x.isSome ∨ y.isSome → z.isSome) := fun _ hx hy =>
    Slot.either_total (fun a ha => ih a (ha ▸ hx)) (fun a ha => hs.slot (ha ▸ hx))
      (fun b hb => ht.slot (hb ▸ hy))
  have both : ∀ {x y : Slot} (bound : Bound), x ∈ s.slots → y ∈ t.slots →
      ∃ z, Slot.both bound x y = .ok z ∧ (x.isSome ∧ y.isSome → z.isSome) := fun _ hx hy =>
    Slot.both_total (fun a ha => ih a (ha ▸ hx)) (fun a ha => hs.slot (ha ▸ hx))
      (fun b hb => ht.slot (hb ▸ hy))
  obtain ⟨a, ha⟩ := Shape.exists_result valid_s
  obtain ⟨b, hb⟩ := Shape.exists_result valid_t
  have operands : Shape.validateForMerge s t = .ok () :=
    (Shape.validateForMerge_iff (ha ▸ rfl) (hb ▸ rfl)).2 ⟨valid_s, valid_t⟩
  generalize hrule : MergeRule.of bound s t = rule
  have formals : ∃ formals, rule.mergeFormals s t = .ok formals := by
    apply exists_mapM
    intro i hi
    obtain ⟨z, hz, present⟩ :=
      either rule.formals (s.formalAt?_mem_slots i) (t.formalAt?_mem_slots i)
    have some_formal :=
      Shape.isSome_formalAt?_of_lt_max valid_s valid_t (List.mem_range.1 hi)
    obtain ⟨v, rfl⟩ := Option.isSome_iff_exists.1 (present some_formal)
    exact ⟨v, bind_eq_ok.2 ⟨_, hz, rfl⟩⟩
  have rest : ∃ rest, rule.mergeRest s.rest t.rest = .ok rest := by
    match rule with
    | .precise .join => exact (both .meet s.rest_mem_slots t.rest_mem_slots).imp fun _ h => h.1
    | .precise .meet => exact (either .join s.rest_mem_slots t.rest_mem_slots).imp fun _ h => h.1
    | .loose => exact ⟨none, rfl⟩
  have result : ∃ result, rule.mergeResult s.result t.result = .ok result := by
    match rule with
    | .precise bound =>
        obtain ⟨z, hz, present⟩ := both bound s.result_mem_slots t.result_mem_slots
        obtain ⟨v, rfl⟩ := Option.isSome_iff_exists.1 (present ⟨ha ▸ rfl, hb ▸ rfl⟩)
        exact ⟨v, bind_eq_ok.2 ⟨_, hz, rfl⟩⟩
    | .loose =>
        obtain ⟨z, hz, present⟩ := either .join s.result_mem_slots t.result_mem_slots
        obtain ⟨v, rfl⟩ := Option.isSome_iff_exists.1 (present (.inl (ha ▸ rfl)))
        exact ⟨v, bind_eq_ok.2 ⟨_, hz, rfl⟩⟩
  obtain ⟨formals, hformals⟩ := formals
  obtain ⟨rest, hrest⟩ := rest
  obtain ⟨result, hresult⟩ := result
  subst hrule
  exact ⟨_, Shape.merge_eq_ok.2 ⟨operands, formals, rest, result, hformals, hrest, hresult, rfl⟩⟩

private theorem Signature.combine_total_aux (bound : Bound) {f g : Signature}
    (ih : ∀ a, some a ∈ f.slots → ∀ b, Bounded a b) (hf : f.DeeplyValid) (hg : g.DeeplyValid) :
    ∃ u, Signature.combine bound f g = .ok u := by
  match f, g with
  | .top loose, g => exact ⟨_, Signature.combine.eq_2 bound g loose⟩
  | .shaped s, .top loose =>
      exact ⟨_, Signature.combine.eq_3 bound (.shaped s) loose (by simp)⟩
  | .shaped s, .shaped t =>
      rw [Signature.combine]
      cases Shape.dominant? bound s t with
      | some u => exact ⟨.shaped u, rfl⟩
      | none =>
          obtain ⟨u, hu⟩ := Shape.merge_total bound ih hf hg
          exact ⟨.shaped u, by simp only [hu]; rfl⟩

private theorem Ty.combine_total_aux (a b : Ty) : Bounded a b := by
  induction a, b using Ty.pair_induction with
  | extreme a b extreme =>
      intro _ _ bound
      rcases Ty.combine_of_extreme extreme bound with eq | eq
      · exact ⟨a, eq⟩
      · exact ⟨b, eq⟩
  | union p c f q d g ih =>
      intro ha hb bound
      obtain ⟨-, hf⟩ := Ty.all_union.1 ha
      obtain ⟨-, hg⟩ := Ty.all_union.1 hb
      suffices callable : ∃ h, Callable.combine bound f g = .ok h by
        obtain ⟨h, eq⟩ := callable
        exact ⟨_, by rw [Ty.combine_union, eq]; rfl⟩
      cases f with
      | none => exact ⟨_, by simp [Callable.combine]; rfl⟩
      | some f =>
          cases g with
          | none => exact ⟨_, by simp [Callable.combine]; rfl⟩
          | some g =>
              obtain ⟨u, hu⟩ :=
                Signature.combine_total_aux bound (ih f rfl) (hf f rfl) (hg g rfl)
              exact ⟨some u, Callable.combine_some.2 hu⟩

/-- Two deeply valid types have both bounds, and these are deeply valid. -/
theorem Ty.combine_total (bound : Bound) {a b : Ty} (ha : a.DeeplyValid) (hb : b.DeeplyValid) :
    ∃ z, Ty.combine bound a b = .ok z ∧ z.DeeplyValid := by
  obtain ⟨z, hz⟩ := Ty.combine_total_aux a b ha hb bound
  exact ⟨z, hz, Ty.all_of_combine .validity ha hb hz⟩

/-- Two deeply valid signatures have both bounds, and these are deeply valid. -/
theorem Signature.combine_total (bound : Bound) {f g : Signature} (hf : f.DeeplyValid)
    (hg : g.DeeplyValid) : ∃ u, Signature.combine bound f g = .ok u ∧ u.DeeplyValid := by
  obtain ⟨u, hu⟩ :=
    Signature.combine_total_aux bound (fun a _ b => Ty.combine_total_aux a b) hf hg
  exact ⟨u, hu, Signature.all_of_combine .validity hf hg hu⟩

end SignatureLattice
