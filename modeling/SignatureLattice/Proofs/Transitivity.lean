/-
Module: SignatureLattice.Proofs.Transitivity
Purpose: When two steps of subtyping make one. The type of further arguments of a supertype counts
  as one formal only, so the two steps may lead past what the last supertype reaches, or to a formal
  that the first signature was never compared with. Nested signatures are compared by their bounds,
  and there the steps chain as absorption does.
Main exports: Shape.CarriesOver, Shape.standsIn_trans_iff, isSubtypeOf_trans
-/
import SignatureLattice.Proofs.Chaining

namespace SignatureLattice

/-!
### Giving way
-/

section

variable {bound : Bound} {x y z : Slot} {b : Ty}

/-- Of three slots of which the one between holds a type, each giving way to the next, the first
    gives way to the last just when they chain. -/
theorem Slot.givesWay_trans_iff (hx : Slot.Exact x) (hy : Slot.Exact y) (hz : Slot.Exact z)
    (between : y = some b) (first : Slot.GivesWay bound x y) (second : Slot.GivesWay bound y z) :
    Slot.GivesWay bound x z ↔ Slot.Chain bound x y z := by
  have types : ∀ a c, x = some a → z = some c →
      (a.GivesWay bound c ↔ Ty.Chain bound a b c) := by
    intro a c ha hc
    rw [Ty.givesWay_iff (hx a ha) (hz c hc)]
    exact Ty.bound_trans_iff (hx a ha) (hy b between) (hz c hc)
      ((Ty.givesWay_iff (hx a ha) (hy b between)).1 (first a b ha between))
      ((Ty.givesWay_iff (hy b between) (hz c hc)).1 (second b c between hc))
  constructor
  · intro whole a b' c ha hb hc
    obtain rfl := Option.some.inj (between.symm.trans hb)
    exact (types a c ha hc).1 (whole a c ha hc)
  · exact fun chain a c ha hc => (types a c ha hc).2 (chain a b c ha between hc)

/-- What is left of aligned slots is aligned. -/
theorem Slot.Aligned.forget {keep : Bool} (h : Slot.Aligned bound x y) :
    Slot.Aligned bound (Slot.forget keep x) (Slot.forget keep y) := by
  intro a' b' ha hb f g hf hg
  cases x with
  | none => simp at ha
  | some a =>
      cases y with
      | none => simp at hb
      | some b =>
          obtain rfl := Option.some.inj ha
          obtain rfl := Option.some.inj hb
          rw [Ty.callable?_forget] at hf hg
          obtain ⟨f, eqf, rfl⟩ := Option.map_eq_some_iff.1 hf
          obtain ⟨g, eqg, rfl⟩ := Option.map_eq_some_iff.1 hg
          exact (h a b rfl rfl f g eqf eqg).forget

/-- Aligned slots of which each gives way to the next chain. -/
theorem Slot.chain_of_aligned (hx : Slot.Exact x) (hy : Slot.Exact y) (hz : Slot.Exact z)
    (first : Slot.GivesWay bound x y) (second : Slot.GivesWay bound y z)
    (hxy : Slot.Aligned bound x y) (hyz : Slot.Aligned bound y z) : Slot.Chain bound x y z :=
  fun a b c ha hb hc => Ty.chain_of_aligned (hx a ha) (hy b hb) (hz c hc)
    ((Ty.givesWay_iff (hx a ha) (hy b hb)).1 (first a b ha hb))
    ((Ty.givesWay_iff (hy b hb) (hz c hc)).1 (second b c hb hc)) (hxy a b ha hb) (hyz b c hb hc)

end

namespace Shape

/-!
### Standing in
-/

/-- What two steps leave open: that the first shape has no formal past the reach of the last one,
    that its further arguments bear the formals of the last one past the reach of the shape between,
    and that the signatures nested in the three chain where they are compared. -/
structure CarriesOver (s t v : Shape) : Prop where
  span : s.span ≤ v.reach
  rest : ∀ i, t.reach ≤ i → i < v.reach → Slot.GivesWay .meet s.rest (v.formalAt? i)
  formals : ∀ i, i < t.reach → i < v.reach →
    Slot.Chain .meet (s.formalAt? i) (t.formalAt? i) (v.formalAt? i)
  result : Slot.Chain .join s.result t.result v.result

/-- Where two shapes are compared in a test, the signatures nested in them are aligned. -/
structure InnerAligned (s t : Shape) : Prop where
  formals : ∀ i, i < t.reach → Slot.Aligned .meet (s.formalAt? i) (t.formalAt? i)
  result : Slot.Aligned .join s.result t.result

/-- A shape is no longer than another one when it has no more formals and either asks nothing of
    further arguments or the other one takes them, too. -/
structure NoLongerThan (s t : Shape) : Prop where
  span : s.span ≤ t.span
  rest : s.rest.all Ty.isTop = true ∨ t.rest.isSome

section

variable {s t v : Shape}

/-- Two steps make one just when they carry over. -/
theorem standsIn_trans_iff (hs : (Signature.shaped s).Exact) (ht : (Signature.shaped t).Exact)
    (hv : (Signature.shaped v).Exact) (first : s.StandsIn t) (second : t.StandsIn v) :
    s.StandsIn v ↔ s.CarriesOver t v := by
  have position : ∀ i, i < t.reach → i < v.reach →
      (Slot.GivesWay .meet (s.formalAt? i) (v.formalAt? i) ↔
        Slot.Chain .meet (s.formalAt? i) (t.formalAt? i) (v.formalAt? i)) := by
    intro i between last
    obtain ⟨b, hb⟩ := exists_formalAt?_of_reach ht.own.1 between
    exact Slot.givesWay_trans_iff (exact_formalAt? hs i) (exact_formalAt? ht i)
      (exact_formalAt? hv i) hb (first.formals i between) (second.formals i last)
  have far : ∀ i, t.reach ≤ i → s.formalAt? i = s.rest := fun i past =>
    formalAt?_of_le (Nat.le_trans first.span past)
  obtain ⟨b, hb⟩ := exists_result ht.own.1
  have result := Slot.givesWay_trans_iff (exact_result hs) (exact_result ht) (exact_result hv) hb
    first.result second.result
  constructor
  · intro whole
    exact ⟨whole.span, fun i past last => far i past ▸ whole.formals i last,
      fun i between last => (position i between last).1 (whole.formals i last),
      result.1 whole.result⟩
  · intro carries
    refine ⟨Nat.le_trans first.required second.required, carries.span, fun i last => ?_,
      result.2 carries.result⟩
    by_cases between : i < t.reach
    · exact (position i between last).2 (carries.formals i between last)
    · have past := Nat.le_of_not_lt between
      exact far i past ▸ carries.rest i past last

/-- Steps between shapes that are aligned inside carry over if the first shape is no longer than the
    one between. -/
theorem carriesOver_of_noLongerThan (hs : (Signature.shaped s).Exact)
    (ht : (Signature.shaped t).Exact) (hv : (Signature.shaped v).Exact) (first : s.StandsIn t)
    (second : t.StandsIn v) (hst : s.InnerAligned t) (htv : t.InnerAligned v)
    (short : s.NoLongerThan t) : s.CarriesOver t v := by
  refine ⟨Nat.le_trans short.span second.span, fun i past inside => ?_, fun i between last => ?_,
    Slot.chain_of_aligned (exact_result hs) (exact_result ht) (exact_result hv) first.result
      second.result hst.result htv.result⟩
  · rcases short.rest with free | variadic
    · intro a c ha _
      obtain rfl : a = .top := by simpa [ha, Ty.isTop_iff] using free
      exact Ty.givesWay_top c
    · obtain ⟨r, hr⟩ := Option.isSome_iff_exists.1 variadic
      -- The further arguments of `s` were compared with those of `t` as with one formal more.
      have last : t.span < t.reach := by
        rw [reach, hr]
        exact Nat.lt_succ_self _
      have lower := first.formals _ last
      have aligned := hst.formals _ last
      have upper := second.formals i inside
      have aligned' := htv.formals i inside
      rw [formalAt?_of_le short.span, formalAt?_of_le (Nat.le_refl _)] at lower aligned
      rw [formalAt?_of_le (Nat.le_trans (Nat.le_add_right _ _) past)] at upper aligned'
      exact (Slot.givesWay_trans_iff (exact_rest hs) (exact_rest ht) (exact_formalAt? hv i) hr lower
        upper).2 (Slot.chain_of_aligned (exact_rest hs) (exact_rest ht) (exact_formalAt? hv i) lower
          upper aligned aligned')
  · exact Slot.chain_of_aligned (exact_formalAt? hs i) (exact_formalAt? ht i)
      (exact_formalAt? hv i) (first.formals i between) (second.formals i last)
      (hst.formals i between) (htv.formals i last)

/-!
### What is left of the shapes
-/

theorem carriesOver_forget :
    (s.forget true).CarriesOver (t.forget true) (v.forget true) ↔ s.CarriesOver t v := by
  constructor
  · rintro ⟨span, rest, formals, result⟩
    simp only [forget_span, forget_reach, forget_rest, forget_formalAt?, forget_result,
      Slot.givesWay_forget, Slot.chain_forget] at span rest formals result
    exact ⟨span, rest, formals, result⟩
  · rintro ⟨span, rest, formals, result⟩
    refine ⟨?_, ?_, ?_, ?_⟩
    · simpa using span
    · simpa [Slot.givesWay_forget] using rest
    · simpa [Slot.chain_forget] using formals
    · simpa [Slot.chain_forget] using result

theorem InnerAligned.forget {keep : Bool} (h : s.InnerAligned t) :
    (s.forget keep).InnerAligned (t.forget keep) where
  formals i hi := by
    rw [forget_formalAt?, forget_formalAt?]
    exact Slot.Aligned.forget (h.formals i (by rwa [forget_reach] at hi))
  result := by
    rw [forget_result, forget_result]
    exact Slot.Aligned.forget h.result

theorem NoLongerThan.forget {keep : Bool} (h : s.NoLongerThan t) :
    (s.forget keep).NoLongerThan (t.forget keep) := by
  refine ⟨by simpa using h.span, ?_⟩
  have rest := h.rest
  cases hs : s.rest <;> cases ht : t.rest <;> simp_all

/-- What is nested in aligned signatures is aligned. -/
theorem innerAligned_of_aligned (h : (Signature.shaped s).Aligned .join (.shaped t)) :
    s.InnerAligned t :=
  ⟨fun i _ => h.formals i, h.results⟩

end

end Shape

/-!
### Main theorem
-/

/-- Two steps of subtyping between concrete signatures make one just when they carry over, where top
    sentinels leave nothing open. They do if the signatures are aligned inside and the first one is
    no longer than the second. -/
theorem isSubtypeOf_trans {f g h : Signature} (hf : f.Concrete) (hg : g.Concrete) (hh : h.Concrete)
    (first : f.isSubtypeOf g = .ok true) (second : g.isSubtypeOf h = .ok true) :
    (f.isSubtypeOf h = .ok true ↔
        ∀ s t v, f = .shaped s → g = .shaped t → h = .shaped v → s.CarriesOver t v) ∧
      ((∀ s t, f = .shaped s → g = .shaped t → s.InnerAligned t ∧ s.NoLongerThan t) →
        (∀ t v, g = .shaped t → h = .shaped v → t.InnerAligned v) →
        f.isSubtypeOf h = .ok true) := by
  match f, g, h with
  | _, _, .top _ => simp [Signature.isSubtypeOf]
  | .top _, .shaped _, .shaped _ => simp [Signature.isSubtypeOf] at first
  | _, .top _, .shaped _ => simp [Signature.isSubtypeOf] at second
  | .shaped s, .shaped t, .shaped v =>
      have exacts : (Signature.shaped (s.forget true)).Exact := hf.definite.exact
      have exactt : (Signature.shaped (t.forget true)).Exact := hg.definite.exact
      have exactv : (Signature.shaped (v.forget true)).Exact := hh.definite.exact
      rw [Signature.isSubtypeOf_iff_standsIn hf hg, ← Shape.standsIn_forget] at first
      rw [Signature.isSubtypeOf_iff_standsIn hg hh, ← Shape.standsIn_forget] at second
      rw [Signature.isSubtypeOf_iff_standsIn hf hh, ← Shape.standsIn_forget,
        Shape.standsIn_trans_iff exacts exactt exactv first second]
      refine ⟨?_, fun short aligned => ?_⟩
      · simp [Shape.carriesOver_forget]
      · have hst := short s t rfl rfl
        exact Shape.carriesOver_of_noLongerThan exacts exactt exactv first second hst.1.forget
          (aligned t v rfl rfl).forget hst.2.forget

/-- The theorem at three signatures that take and return functions, each one formal longer than the
    one before. -/
theorem isSubtypeOf_trans_nested :
    let number : Ty := .ofPrimitives { number := true }
    let silent : Signature := .shaped { required := [some number], result := some .bottom }
    let telling : Signature := .shaped { required := [some number], result := some number }
    let f : Signature := .shaped { result := some (.callableOf .bottom) }
    let g : Signature := .shaped
      { optional := [some (.callableOf telling)], result := some (.callableOf silent) }
    let h : Signature := .shaped
      { required := [some (.callableOf silent), some number],
        result := some (.callableOf telling) }
    f.isSubtypeOf g = .ok true ∧ g.isSubtypeOf h = .ok true ∧ f.isSubtypeOf h = .ok true := by
  intro number silent telling f g h
  have aligned : ∀ {s t : Shape}, (Signature.shaped s).Plain → (Signature.shaped t).Plain →
      s.InnerAligned t := fun hs ht => Shape.innerAligned_of_aligned
    (Signature.aligned_of_freeTail hs.freeTail ht.freeTail .join)
  have concrete : f.Concrete ∧ g.Concrete ∧ h.Concrete := by decide
  have first : f.isSubtypeOf g = .ok true := by decide +kernel
  have second : g.isSubtypeOf h = .ok true := by decide +kernel
  have short : ∀ s t, f = .shaped s → g = .shaped t → s.InnerAligned t ∧ s.NoLongerThan t := by
    intro s t hs ht
    obtain rfl := Signature.shaped.inj hs
    obtain rfl := Signature.shaped.inj ht
    exact ⟨aligned (by decide) (by decide), by decide, .inl rfl⟩
  have inside : ∀ t v, g = .shaped t → h = .shaped v → t.InnerAligned v := by
    intro t v ht hv
    obtain rfl := Signature.shaped.inj ht
    obtain rfl := Signature.shaped.inj hv
    exact aligned (by decide) (by decide)
  have trans := isSubtypeOf_trans concrete.1 concrete.2.1 concrete.2.2 first second
  exact ⟨first, second, trans.2 short inside⟩

/-- Steps that do not carry over, and steps between signatures that return functions which are not
    aligned. -/
theorem isSubtypeOf_trans_fails :
    let number : Ty := .ofPrimitives { number := true }
    let f : Signature := .shaped { optional := [some number], result := some .bottom }
    let g : Signature := .shaped { rest := some number, result := some .bottom }
    let h : Signature := .shaped { result := some .bottom }
    let returns (u : Signature) : Signature := .shaped { result := some (.callableOf u) }
    let u : Signature := .shaped
      { rest := some (.ofPrimitives { string := true }), result := some .bottom }
    let v : Signature := .shaped { required := [some number], result := some .bottom }
    f.Concrete ∧ g.Concrete ∧ h.Concrete ∧ f.isSubtypeOf g = .ok true ∧
      g.isSubtypeOf h = .ok true ∧ f.isSubtypeOf h = .ok false ∧
      (returns u).Concrete ∧ (returns h).Concrete ∧ (returns v).Concrete ∧
      (returns u).isSubtypeOf (returns h) = .ok true ∧
      (returns h).isSubtypeOf (returns v) = .ok true ∧
      (returns u).isSubtypeOf (returns v) = .ok false := by
  intro number f g h returns u v
  have concrete : f.Concrete ∧ g.Concrete ∧ h.Concrete ∧ (returns u).Concrete ∧
      (returns h).Concrete ∧ (returns v).Concrete := by decide
  have carries : f.isSubtypeOf g = .ok true ∧ g.isSubtypeOf h = .ok true ∧
      f.isSubtypeOf h = .ok false := by
    decide +kernel
  have inside : (returns u).isSubtypeOf (returns h) = .ok true ∧
      (returns h).isSubtypeOf (returns v) = .ok true ∧
      (returns u).isSubtypeOf (returns v) = .ok false := by
    decide +kernel
  exact ⟨concrete.1, concrete.2.1, concrete.2.2.1, carries.1, carries.2.1, carries.2.2,
    concrete.2.2.2.1, concrete.2.2.2.2.1, concrete.2.2.2.2.2, inside⟩

end SignatureLattice
