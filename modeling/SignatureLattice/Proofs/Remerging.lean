/-
Module: SignatureLattice.Proofs.Remerging
Purpose: Merging an operand into a bound again changes nothing. Bounds do not associate, so this is
  no law of lattices: a first merge may forget the type of further arguments and drop optional
  formals, and the second one sees shorter lists. Position by position it holds all the same, for
  exact types by induction over what is nested in them; and a loose merge, which joins all slots,
  repeats what it did once the types in the slots allow for it.
Main exports: Ty.bound_again, Signature.bound_again, Shape.Observed, Signature.Absorbs,
  remerge_absorbed
-/
import SignatureLattice.Proofs.Fitting

namespace SignatureLattice

open Outcome

/-!
### Exact types
-/

/-- Taking the type into its bound with another one again changes nothing. -/
private def RepeatsAt (a : Ty) : Prop :=
  ∀ (bound : Bound) (b : Ty), a.Exact → b.Exact →
    Ty.bound bound (Ty.bound bound a b) a = Ty.bound bound a b

namespace Shape

variable {bound : Bound} {s t u v : Shape}

private theorem repeats_formal (ih : ∀ a, some a ∈ s.slots → RepeatsAt a)
    (hs : (Signature.shaped s).Exact) (ht : (Signature.shaped t).Exact)
    (h : Pointwise bound s t u) {i : Nat} {a c : Ty} (ha : s.formalAt? i = some a)
    (hc : u.formalAt? i = some c) : Ty.bound bound.dual c a = c := by
  have exacta := exact_formalAt? hs i a ha
  cases hb : t.formalAt? i with
  | none =>
      obtain rfl := h.formalAt?_left ha hb hc
      exact Ty.bound_self bound.dual exacta
  | some b =>
      obtain rfl := Option.some.inj ((h.formalAt?_some ha hb).symm.trans hc)
      exact ih a (ha ▸ s.formalAt?_mem_slots i) bound.dual b exacta (exact_formalAt? ht i b hb)

private theorem pointwise_again (ih : ∀ a, some a ∈ s.slots → RepeatsAt a)
    (hs : (Signature.shaped s).Exact) (ht : (Signature.shaped t).Exact)
    (h : Pointwise bound s t u) : Pointwise bound u s u := by
  have formal : ∀ {i a c}, s.formalAt? i = some a → u.formalAt? i = some c →
      Ty.bound bound.dual c a = c := fun ha hc => repeats_formal ih hs ht h ha hc
  refine ⟨?_, Nat.le_max_left _ _, fun i hi => ?_, ?_, ?_⟩
  · have required := h.required
    cases bound with
    | join =>
        simp only [Bound.pick] at required ⊢
        omega
    | meet =>
        simp only [Bound.pick] at required ⊢
        omega
  · cases ha : s.formalAt? i with
    | none => rw [Option.merge_none_right]
    | some a =>
        have span := h.span
        have here := h.formalAt? i (by omega)
        cases hc : u.formalAt? i with
        | none => cases hb : t.formalAt? i <;> simp [ha, hb, hc] at here
        | some c => exact congrArg some (formal ha hc).symm
  · have rest := h.rest
    have rests : ∀ {a c}, s.rest = some a → u.rest = some c → Ty.bound bound.dual c a = c := by
      intro a c ha hc
      obtain ⟨i, fars, -, faru⟩ := exists_past s t u
      exact formal (fars.trans ha) (faru.trans hc)
    cases ha : s.rest with
    | none =>
        cases bound with
        | join =>
            rw [rest, ha]
            rfl
        | meet => exact Option.merge_none_right.symm
    | some a =>
        cases hc : u.rest with
        | none =>
            cases bound with
            | join => rfl
            | meet => cases hb : t.rest <;> simp [ha, hb, hc, Bound.pick] at rest
        | some c =>
            have again := (rests ha hc).symm
            cases bound with
            | join => exact congrArg some again
            | meet => exact congrArg some again
  · obtain ⟨a, ha⟩ := exists_result hs.own.1
    obtain ⟨b, hb⟩ := exists_result ht.own.1
    have result := h.result
    rw [ha, hb, Option.map₂_some_some] at result
    rw [result, ha, Option.map₂_some_some,
      ih a (ha ▸ s.result_mem_slots) bound b (exact_result hs a ha) (exact_result ht b hb)]

end Shape

private theorem Signature.bound_again_of {bound : Bound} {f g : Signature}
    (ih : ∀ a, some a ∈ f.slots → RepeatsAt a) (hf : f.Exact) (hg : g.Exact) :
    Signature.bound bound (Signature.bound bound f g) f = Signature.bound bound f g := by
  match f, g with
  | .top loose, g =>
      rw [Signature.top_of_exact hf, Signature.bound_top]
      cases bound with
      | join => exact Signature.bound_self .join (.top false)
      | meet => exact Signature.bound_top_right .meet hg
  | .shaped s, .top loose =>
      rw [Signature.top_of_exact hg, Signature.bound_top_right bound hf]
      cases bound with
      | join => exact Signature.bound_top .join (.shaped s)
      | meet => exact Signature.bound_self .meet (.shaped s)
  | .shaped s, .shaped t =>
      obtain ⟨u, eq, h⟩ := Shape.exists_pointwise bound hf hg
      have hu : (Signature.shaped u).Exact := eq ▸ Signature.exact_bound bound hf hg
      rw [eq, Shape.bound_eq_iff hu hf hu]
      exact Shape.pointwise_again ih hf hg h

private theorem Callable.bound_again_of (bound : Bound) {f g : Callable}
    (signatures : ∀ f' g', f = some f' → g = some g' →
      Signature.bound bound (Signature.bound bound f' g') f' = Signature.bound bound f' g') :
    Callable.bound bound (Callable.bound bound f g) f = Callable.bound bound f g := by
  match f, g with
  | none, none => cases bound <;> rfl
  | none, some g => cases bound <;> rfl
  | some f, none =>
      cases bound with
      | join => exact congrArg some (Signature.bound_self .join f)
      | meet => rfl
  | some f, some g => exact congrArg some (signatures f g rfl rfl)

private theorem Ty.bound_again_of_extreme (bound : Bound) {a b : Ty} (ha : a.Exact) (hb : b.Exact)
    (extreme : (a.isExtreme || b.isExtreme) = true) :
    Ty.bound bound (Ty.bound bound a b) a = Ty.bound bound a b := by
  rcases Ty.combine_of_extreme extreme bound with eq | eq
  · rw [Ty.bound_eq_of_combine eq]
    exact Ty.bound_self bound ha
  · rw [Ty.bound_eq_of_combine eq, Ty.bound_comm bound hb ha]
    exact Ty.bound_eq_of_combine eq

private theorem Ty.repeatsAt (a : Ty) : RepeatsAt a := by
  induction a using Ty.nested_induction with
  | top => exact fun bound b ha hb => Ty.bound_again_of_extreme bound ha hb rfl
  | unknown => exact fun bound b ha hb => Ty.bound_again_of_extreme bound ha hb rfl
  | union p classes f ih =>
      intro bound b ha hb
      match b with
      | .top => exact Ty.bound_again_of_extreme bound ha hb (Bool.or_true _)
      | .unknown => exact Ty.bound_again_of_extreme bound ha hb (Bool.or_true _)
      | .union q d g =>
          obtain ⟨canonical, hf⟩ := Ty.all_union.1 ha
          obtain ⟨canonical', hg⟩ := Ty.all_union.1 hb
          have exact := Ty.exact_bound bound ha hb
          rw [Ty.bound_union bound ha hb] at exact ⊢
          rw [Ty.bound_union bound exact ha, Primitives.pick_again,
            ClassSet.pick_again bound canonical canonical',
            Callable.bound_again_of bound fun f' g' eqf eqg =>
              Signature.bound_again_of (ih f' eqf) (hf f' eqf) (hg g' eqg)]

section

variable {bound : Bound}

/-- A bound of exact types takes either of them in again without a change. -/
theorem Ty.bound_again {a b : Ty} (ha : a.Exact) (hb : b.Exact) :
    Ty.bound bound (Ty.bound bound a b) a = Ty.bound bound a b :=
  a.repeatsAt bound b ha hb

theorem Ty.bound_again_right {a b : Ty} (ha : a.Exact) (hb : b.Exact) :
    Ty.bound bound (Ty.bound bound a b) b = Ty.bound bound a b := by
  rw [Ty.bound_comm bound ha hb]
  exact Ty.bound_again hb ha

/-- A bound of exact signatures does, too. -/
theorem Signature.bound_again {f g : Signature} (hf : f.Exact) (hg : g.Exact) :
    Signature.bound bound (Signature.bound bound f g) f = Signature.bound bound f g :=
  Signature.bound_again_of (fun a _ => a.repeatsAt) hf hg

theorem Signature.bound_again_right {f g : Signature} (hf : f.Exact) (hg : g.Exact) :
    Signature.bound bound (Signature.bound bound f g) g = Signature.bound bound f g := by
  rw [Signature.bound_comm bound hf hg]
  exact Signature.bound_again hg hf

end

/-!
### Loose merges
-/

namespace Shape

variable {bound : Bound} {s t u v : Shape}

/-- What a loose merge makes of two shapes with exact slots: as few arguments are required as by
    either, both formals and results are joined, and further arguments are not taken. -/
structure Observed (s t u : Shape) : Prop where
  loose : u.loose = true
  required : u.required.length = min s.required.length t.required.length
  span : u.span = max s.span t.span
  formalAt? : ∀ i, i < u.span →
    u.formalAt? i = Option.merge (Ty.bound .join) (s.formalAt? i) (t.formalAt? i)
  rest : u.rest = none
  result : u.result = Option.merge (Ty.bound .join) s.result t.result

/-- What every slot of a shape holds is exact. -/
def SlotsExact (s : Shape) : Prop :=
  ∀ x ∈ s.slots, Slot.Exact x

theorem SlotsExact.formalAt? (h : s.SlotsExact) (i : Nat) : Slot.Exact (s.formalAt? i) :=
  h _ (s.formalAt?_mem_slots i)

theorem SlotsExact.result (h : s.SlotsExact) : Slot.Exact s.result :=
  h _ s.result_mem_slots

theorem observed_of_merge (hs : s.validate = .ok ()) (ht : t.validate = .ok ())
    (rule : MergeRule.of bound s t = .loose) (h : Shape.merge bound s t = .ok u) :
    Observed s t u := by
  have assembled := assembled_of_loose hs ht rule h
  refine ⟨assembled.loose, assembled.required, assembled.span, fun i hi => ?_,
    assembled.rest_of_loose, ?_⟩
  · exact (assembled.formals i (assembled.span ▸ hi)).eq_merge
  · obtain ⟨c, hc, result⟩ := assembled.result
    obtain ⟨a, b, ha, hb, joined⟩ := Slot.combine_eq_ok.1 hc
    rw [result, ha, hb]
    exact congrArg some (Ty.bound_eq_of_combine joined).symm

theorem Observed.comm (hs : s.SlotsExact) (ht : t.SlotsExact) (h : Observed s t u) :
    Observed t s u where
  loose := h.loose
  required := by rw [h.required, Nat.min_comm]
  span := by rw [h.span, Nat.max_comm]
  formalAt? i hi := by
    rw [h.formalAt? i hi, Slot.merge_comm .join (hs.formalAt? i) (ht.formalAt? i)]
  rest := h.rest
  result := by rw [h.result, Slot.merge_comm .join hs.result ht.result]

/-- Observed again together with one of its operands, a loose merge stays as it is. -/
theorem Observed.same_again (hs : s.SlotsExact) (ht : t.SlotsExact) (h : Observed s t u)
    (again : Observed u s v) : v.same u = true := by
  have slots : ∀ {x y : Slot}, Slot.Exact x → Slot.Exact y →
      Option.merge (Ty.bound .join) (Option.merge (Ty.bound .join) x y) x =
        Option.merge (Ty.bound .join) x y := by
    intro x y hx hy
    cases x with
    | none => simp
    | some a =>
        cases y with
        | none => exact Slot.merge_self .join hx
        | some b => exact congrArg some (Ty.bound_again (hx a rfl) (hy b rfl))
  have span : v.span = u.span := by
    rw [again.span, h.span]
    omega
  refine same_iff_formalAt?.2 ⟨?_, span, fun i hi => ?_, ?_, ?_⟩
  · rw [again.required, h.required]
    omega
  · rw [again.formalAt? i hi, h.formalAt? i (span ▸ hi), slots (hs.formalAt? i) (ht.formalAt? i)]
    exact Slot.same_refl _
  · rw [again.rest, h.rest]
    rfl
  · rw [again.result, h.result, slots hs.result ht.result]
    exact Slot.same_refl _

end Shape

/-!
### Absorption
-/

/-- A signature absorbs another one in a bound when merging the other one into it changes nothing
    that equality sees. -/
def Signature.Absorbs (bound : Bound) (f g : Signature) : Prop :=
  ∃ h, Signature.combine bound f g = .ok h ∧ h.same f = true

/-- A type absorbs another one when joining or meeting it with that one changes nothing. -/
def Ty.Absorbs (bound : Bound) (a b : Ty) : Prop :=
  ∃ c, Ty.combine bound a b = .ok c ∧ c.same a = true

/-- Absorption is a matter of what is left of two signatures. -/
theorem Signature.absorbs_forget {bound : Bound} {f g : Signature} :
    (f.forget true).Absorbs bound (g.forget true) ↔ f.Absorbs bound g := by
  simp only [Signature.Absorbs, Signature.combine_forget, map_eq_ok]
  constructor
  · rintro ⟨_, ⟨h, hh, rfl⟩, same⟩
    exact ⟨h, hh, by rwa [Signature.same_forget] at same⟩
  · rintro ⟨h, hh, same⟩
    exact ⟨_, ⟨h, hh, rfl⟩, by rwa [Signature.same_forget]⟩

/-- A signature absorbs all that equal it. -/
theorem Signature.absorbs_of_same {bound : Bound} {f g : Signature} (h : f.same g = true) :
    f.Absorbs bound g := by
  obtain ⟨u, hu, same⟩ := Signature.combine_of_same bound h
  refine ⟨u, hu, ?_⟩
  rw [Signature.same_iff] at *
  exact same.trans h.symm

/-!
### What bounds absorb
-/

section

variable {bound : Bound}

theorem Signature.top_absorbs (loose : Bool) (g : Signature) :
    (Signature.top loose).Absorbs .join g :=
  ⟨_, by rw [Signature.combine], rfl⟩

theorem Signature.absorbs_top (f : Signature) (loose : Bool) :
    f.Absorbs .meet (.top loose) := by
  cases f with
  | top loose' => exact ⟨.top loose, by rw [Signature.combine]; rfl, rfl⟩
  | shaped s => exact ⟨.shaped s, by simp [Signature.combine, Bound.pick], Signature.same_refl _⟩

/-- A bound absorbs its operands if one of them is a top sentinel. -/
private theorem Signature.absorbs_of_top {f g u : Signature} (extreme : f.isTop ∨ g.isTop)
    (h : Signature.combine bound f g = .ok u) : u.Absorbs bound f ∧ u.Absorbs bound g := by
  have self : ∀ f : Signature, f.Absorbs bound f := fun f =>
    Signature.absorbs_of_same (Signature.same_refl f)
  match f, g with
  | .top loose, g =>
      rw [Signature.combine] at h
      obtain rfl := Except.ok.inj h
      cases bound with
      | join => exact ⟨Signature.top_absorbs _ _, Signature.top_absorbs _ _⟩
      | meet => exact ⟨Signature.absorbs_top g loose, self g⟩
  | .shaped s, .top loose =>
      obtain rfl : bound.pick (.top (loose && (Signature.shaped s).isBottom)) (.shaped s) = u := by
        simpa [Signature.combine] using h
      cases bound with
      | join => exact ⟨Signature.top_absorbs _ _, Signature.top_absorbs _ _⟩
      | meet => exact ⟨self _, Signature.absorbs_top _ loose⟩
  | .shaped s, .shaped t => simp [Signature.isTop] at extreme

/-- An operand that is the bound already absorbs both. -/
private theorem Shape.absorbs_of_dominant {s t u : Shape} (h : dominant? bound s t = some u) :
    (Signature.shaped u).Absorbs bound (.shaped s) ∧
      (Signature.shaped u).Absorbs bound (.shaped t) := by
  have self : ∀ v : Shape, (Signature.shaped v).Absorbs bound (.shaped v) := fun v =>
    Signature.absorbs_of_same (Signature.same_refl _)
  have other : ∀ v w x : Shape, dominant? bound v w = some x → x.same v = true →
      (Signature.shaped v).Absorbs bound (.shaped w) := fun v w x dominant same =>
    ⟨.shaped x, by rw [Signature.combine, dominant], same⟩
  rcases dominant?_eq_some h with rfl | rfl
  · exact ⟨self _, other _ _ _ h (Signature.same_refl (.shaped _))⟩
  · have mirrored := dominant?_comm bound s u
    rw [h] at mirrored
    obtain ⟨x, dominant, same⟩ := Option.map_eq_some_iff.1 mirrored.symm
    exact ⟨other _ _ x dominant ((Shape.same_iff x u).2 same), self _⟩

/-- A loose merge absorbs its left operand. -/
private theorem Shape.absorbs_of_observed {s t u : Shape} (hs : s.SlotsExact) (ht : t.SlotsExact)
    (deep : (Signature.shaped s).DeeplyValid) (deepu : (Signature.shaped u).DeeplyValid)
    (h : Observed s t u) : (Signature.shaped u).Absorbs bound (.shaped s) := by
  obtain ⟨w, hw, -⟩ := Signature.combine_total bound deepu deep
  refine ⟨w, hw, ?_⟩
  obtain ⟨v, rfl, dominant | ⟨-, merged⟩⟩ := Signature.combine_shaped_eq_ok.1 hw
  · rcases dominant?_cases dominant with ⟨-, rfl⟩ | ⟨-, ⟨-, rfl⟩ | ⟨least, -⟩⟩
    · exact Signature.same_refl _
    · exact Signature.same_refl _
    · simp [isBottom_of_rest h.rest] at least
  · have rule : MergeRule.of bound u s = .loose := by simp [MergeRule.of, h.loose]
    simpa [Signature.same] using
      h.same_again hs ht (observed_of_merge deepu.own deep.own rule merged)

end

/-- A signature is definite inside when it is complete and regular at every depth and no signature
    nested in it is loose. It may be loose itself. -/
structure Signature.DefiniteInside (f : Signature) : Prop where
  valid : f.DeeplyValid
  regular : f.Regular
  inside : ∀ t, some t ∈ f.slots → t.DeeplyPrecise

instance (f : Signature) : Decidable f.DefiniteInside :=
  decidable_of_iff (f.DeeplyValid ∧ f.Regular ∧ ∀ x ∈ f.slots, ∀ t ∈ x, t.DeeplyPrecise)
    ⟨fun ⟨valid, regular, inside⟩ => ⟨valid, regular, fun t ht => inside _ ht t rfl⟩,
      fun ⟨valid, regular, inside⟩ => ⟨valid, regular, fun _ hx t ht => inside t (ht ▸ hx)⟩⟩

theorem Signature.DefiniteInside.definite {f : Signature} (h : f.DefiniteInside)
    (precise : f.isLoose = false) : f.Definite :=
  ⟨h.valid, h.regular, Signature.all_iff.2 ⟨precise, h.inside⟩⟩

theorem Signature.DeeplyValid.forget {f : Signature} (h : f.DeeplyValid) :
    (f.forget true).DeeplyValid :=
  Signature.All.forget trivial (fun g valid => by
    cases g with
    | top loose => rfl
    | shaped s => exact (s.validate_forget true).trans valid) h

theorem Signature.DefiniteInside.slotsExact {s : Shape} (h : (Signature.shaped s).DefiniteInside) :
    (s.forget true).SlotsExact := by
  intro x hx a ha
  have mem : x ∈ s.slots.map (Slot.forget true) := by
    rw [← Signature.slots_shaped, ← Signature.forget_slots]
    exact hx
  obtain ⟨y, hy, rfl⟩ := List.mem_map.1 mem
  cases y with
  | none => simp at ha
  | some b =>
      obtain rfl := Option.some.inj ha
      exact Ty.Definite.exact ⟨h.valid.slot hy, h.regular.slot hy, h.inside b hy⟩

section

variable {bound : Bound}

private theorem Signature.absorbs_of_definite {f g u : Signature} (hf : f.Definite)
    (hg : g.Definite) (h : Signature.combine bound f g = .ok u) :
    u.Absorbs bound f ∧ u.Absorbs bound g := by
  obtain rfl := Signature.bound_eq_of_combine h
  have definite := hf.bound bound hg
  have left := Signature.forget_bound bound hf.valid hg.valid
  refine ⟨⟨_, Signature.combine_eq_bound bound definite.valid hf.valid, ?_⟩,
    ⟨_, Signature.combine_eq_bound bound definite.valid hg.valid, ?_⟩⟩
  · apply Signature.same_of_forget (k := true)
    rw [Signature.forget_bound bound definite.valid hf.valid, left,
      Signature.bound_again hf.exact hg.exact]
  · apply Signature.same_of_forget (k := true)
    rw [Signature.forget_bound bound definite.valid hg.valid, left,
      Signature.bound_again_right hf.exact hg.exact]

private theorem Shape.absorbs_of_loose {s t : Shape} {u : Signature} (hs : s.SlotsExact)
    (ht : t.SlotsExact) (deeps : (Signature.shaped s).DeeplyValid)
    (deept : (Signature.shaped t).DeeplyValid) (rule : MergeRule.of bound s t = .loose)
    (h : Signature.combine bound (.shaped s) (.shaped t) = .ok u) :
    u.Absorbs bound (.shaped s) ∧ u.Absorbs bound (.shaped t) := by
  have deepu : u.DeeplyValid := Signature.all_of_combine .validity deeps deept h
  obtain ⟨v, rfl, dominant | ⟨-, merged⟩⟩ := Signature.combine_shaped_eq_ok.1 h
  · exact absorbs_of_dominant dominant
  · have observed := observed_of_merge deeps.own deept.own rule merged
    exact ⟨absorbs_of_observed hs ht deeps deepu observed,
      absorbs_of_observed ht hs deept deepu (observed.comm hs ht)⟩

/-- A bound of signatures that are definite inside absorbs both. -/
theorem Signature.absorbs_of_combine {f g u : Signature} (hf : f.DefiniteInside)
    (hg : g.DefiniteInside) (h : Signature.combine bound f g = .ok u) :
    u.Absorbs bound f ∧ u.Absorbs bound g := by
  match f, g with
  | .top _, _ => exact Signature.absorbs_of_top (.inl rfl) h
  | .shaped _, .top _ => exact Signature.absorbs_of_top (.inr rfl) h
  | .shaped s, .shaped t =>
      by_cases precise : s.loose = false ∧ t.loose = false
      · exact Signature.absorbs_of_definite (hf.definite precise.1) (hg.definite precise.2) h
      · have rule : MergeRule.of bound (s.forget true) (t.forget true) = .loose := by
          cases hs : s.loose <;> cases ht : t.loose <;> simp_all [MergeRule.of]
        have left : Signature.combine bound (.shaped (s.forget true)) (.shaped (t.forget true)) =
            .ok (u.forget true) := by
          rw [← Signature.forget_shaped, ← Signature.forget_shaped, Signature.combine_forget, h]
          rfl
        rw [← Signature.absorbs_forget (g := .shaped s),
          ← Signature.absorbs_forget (g := .shaped t)]
        exact Shape.absorbs_of_loose hf.slotsExact hg.slotsExact hf.valid.forget hg.valid.forget
          rule left

/-- A bound of definite types absorbs both. -/
theorem Ty.absorbs_bound (bound : Bound) {a b : Ty} (ha : a.Definite) (hb : b.Definite) :
    (Ty.bound bound a b).Absorbs bound a ∧ (Ty.bound bound a b).Absorbs bound b := by
  have valid := Ty.all_of_combine .validity ha.valid hb.valid
    (Ty.combine_eq_bound bound ha.valid hb.valid)
  have left := Ty.forget_bound bound ha.valid hb.valid
  refine ⟨⟨_, Ty.combine_eq_bound bound valid ha.valid, ?_⟩,
    ⟨_, Ty.combine_eq_bound bound valid hb.valid, ?_⟩⟩
  · rw [← Ty.same_forget true true, Ty.forget_bound bound valid ha.valid, left,
      Ty.bound_again ha.exact hb.exact]
    exact Ty.same_refl _
  · rw [← Ty.same_forget true true, Ty.forget_bound bound valid hb.valid, left,
      Ty.bound_again_right ha.exact hb.exact]
    exact Ty.same_refl _

end

/-!
### Main theorem
-/

/-- Merging an operand again changes nothing. Two signatures in which no loose one is nested have
    both bounds, be they loose themselves or not, and merging either of them into a bound once more
    yields a signature that equals the bound. So it is with types in which no loose signature is
    nested. -/
theorem remerge_absorbed (bound : Bound) :
    (∀ f g : Signature, f.DefiniteInside → g.DefiniteInside →
      ∃ u : Signature, Callable.combine bound (some f) (some g) = .ok (some u) ∧
        ∀ h, h = f ∨ h = g → ∃ v : Signature,
          Callable.combine bound (some u) (some h) = .ok (some v) ∧ v.same u = true) ∧
    ∀ a b : Ty, a.Definite → b.Definite →
      ∃ z : Ty, Slot.combine bound (some a) (some b) = .ok z ∧
        ∀ c, c = a ∨ c = b → ∃ w : Ty,
          Slot.combine bound (some z) (some c) = .ok w ∧ w.same z = true := by
  constructor
  · intro f g hf hg
    obtain ⟨u, hu, -⟩ := Signature.combine_total bound hf.valid hg.valid
    have absorbs := Signature.absorbs_of_combine hf hg hu
    have again : ∀ h, u.Absorbs bound h → ∃ v : Signature,
        Callable.combine bound (some u) (some h) = .ok (some v) ∧ v.same u = true := by
      rintro h ⟨v, hv, same⟩
      exact ⟨v, by rw [Callable.combine, hv]; rfl, same⟩
    refine ⟨u, by rw [Callable.combine, hu]; rfl, ?_⟩
    rintro h (rfl | rfl)
    · exact again h absorbs.1
    · exact again h absorbs.2
  · intro a b ha hb
    have absorbs := Ty.absorbs_bound bound ha hb
    have again : ∀ c, (Ty.bound bound a b).Absorbs bound c → ∃ w : Ty,
        Slot.combine bound (some (Ty.bound bound a b)) (some c) = .ok w ∧
          w.same (Ty.bound bound a b) = true := by
      rintro c ⟨w, hw, same⟩
      exact ⟨w, by rw [Slot.combine, Slot.both, hw]; rfl, same⟩
    refine ⟨Ty.bound bound a b, ?_, ?_⟩
    · rw [Slot.combine, Slot.both, Ty.combine_eq_bound bound ha.valid hb.valid]
      rfl
    · rintro c (rfl | rfl)
      · exact again c absorbs.1
      · exact again c absorbs.2

/-- The theorem at a loose variadic constructor that takes functions and a precise signature, and at
    the types of a class's instances and of functions of the precise signature. -/
theorem remerge_absorbed_loose :
    let inner : Signature := .shaped { optional := [some .unknown], result := some .top }
    let f : Signature := .shaped
      { required := [some (.callableOf inner)], rest := some .unknown, result := some .bottom,
        owner := some ⟨"Foo", 0⟩, loose := true }
    let g : Signature := .shaped
      { optional := [some (.callableOf .bottom), some .top], rest := some (.callableOf inner),
        result := some (.callableOf inner) }
    let a : Ty := .instanceOf ⟨"Foo", 0⟩
    let b : Ty := .callableOf g
    (∃ u v : Signature, Callable.meet (some f) (some g) = .ok (some u) ∧
      Callable.meet (some u) (some g) = .ok (some v) ∧ v.same u = true) ∧
    ∃ z w : Ty, Slot.join (some a) (some b) = .ok z ∧ Slot.join (some z) (some b) = .ok w ∧
      w.same z = true := by
  intro inner f g a b
  have definite : f.DefiniteInside ∧ g.DefiniteInside := by decide
  obtain ⟨u, hu, signatures⟩ := (remerge_absorbed .meet).1 f g definite.1 definite.2
  obtain ⟨v, hv, same⟩ := signatures g (.inr rfl)
  obtain ⟨z, hz, types⟩ := (remerge_absorbed .join).2 a b ⟨by decide, by decide, by decide⟩
    ⟨by decide, by decide, by decide⟩
  obtain ⟨w, hw, equal⟩ := types b (.inr rfl)
  exact ⟨⟨u, v, hu, hv, same⟩, z, w, hz, hw, equal⟩

end SignatureLattice
