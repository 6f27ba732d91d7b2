/-
Module: SignatureLattice.Proofs.Leniency
Purpose: What the approximate test lets pass. It asks for overlaps only, so that a signature which
  can stand in for another one passes with it, and one that went into a merged approximation passes
  with the approximation.
Main exports: Shape.compatible_of_isSubtypeOf, Shape.compatible_of_assembled,
  isCompatibleWith_of_isSubtypeOf, summary_compatible
-/
import SignatureLattice.Proofs.Slotwise
import SignatureLattice.Proofs.Variance

namespace SignatureLattice

open Outcome

namespace Shape

variable {s t u : Shape}

/-!
### What can stand in is compatible
-/

/-- A shape that constructs no class is compatible with another one if it requires no more
    arguments, and its demands and its result concur with what is demanded of it. -/
theorem compatible_of_demand (plain : s.owner = none)
    (inhabiteds : some .bottom ∉ s.formals) (inhabitedt : some .bottom ∉ t.formals)
    (required : s.required.length ≤ t.required.length)
    (formals : ∀ i, i < t.required.length →
      Slot.Concur (s.formalAt? i) ((s.demand t).formalAt? i))
    (result : Slot.Concur s.result (s.demand t).result) : s.Compatible t := by
  refine ⟨fun i hi => ?_, ?_⟩
  · rw [Nat.max_eq_right required] at hi
    have inside : i < t.reach := by
      rw [reach, span]
      omega
    have concur := formals i hi
    rw [demand_formalAt? s inside] at concur
    exact Slot.concur_unknownToBottom concur
      (fun bottom => inhabiteds (bottom ▸ s.formalAt?_mem_formals i))
      (fun bottom => inhabitedt (bottom ▸ t.formalAt?_mem_formals i))
  · rw [returned_of_plain plain]
    cases unknown : s.result.any Ty.isUnknown with
    | false =>
        simpa [demand, returned_of_plain plain, unknown] using result
    | true =>
        -- An unknown result is held against no other one, and overlaps whatever is returned.
        intro _ ht a b ha hb
        have eq : a = .unknown := by
          rw [ha] at unknown
          cases a <;> simp_all [Ty.isUnknown]
        rw [hb] at ht
        rw [eq, Ty.overlaps_comm]
        exact Ty.overlaps_of_extreme rfl (mt (congrArg some) ht)

/-- A precise shape that is a subtype of another one is compatible with it. -/
theorem compatible_of_isSubtypeOf (hs : (Signature.shaped s).DeeplyValid)
    (ht : (Signature.shaped t).DeeplyValid) (precises : s.loose = false)
    (preciset : t.loose = false) (plain : s.owner = none)
    (inhabiteds : some .bottom ∉ s.formals) (inhabitedt : some .bottom ∉ t.formals)
    (h : (Signature.shaped s).isSubtypeOf (.shaped t) = .ok true) : s.Compatible t := by
  have count : (s.demand t).required.length = t.required.length := by simp [demand]
  rcases (Signature.isSubtypeOf_iff_same_or_fits hs ht).1 h with least | same | fits
  · obtain ⟨required, -, -, result⟩ := isBottom_iff_parts.1 least
    refine compatible_of_demand plain inhabiteds inhabitedt (by simp [required]) (fun i _ => ?_) ?_
    · rw [formalAt?_of_isBottom least]
      exact Slot.GivesWay.concur fun a b ha _ => Option.some.inj ha ▸ Ty.givesWay_top b
    · rw [result]
      exact fun silent => absurd rfl silent
  · obtain ⟨required, -, -, -, result⟩ := same_iff_formalAt?.1 same
    exact compatible_of_demand plain inhabiteds inhabitedt (required.trans count).le
      (fun i _ => Slot.concur_of_same (same_formalAt? same i)) (Slot.concur_of_same result)
  · have required := fits.required
    rw [MergeRule.of_precise .join precises preciset, count, MergeRule.requiredCount] at required
    refine compatible_of_demand plain inhabiteds inhabitedt (by omega) (fun i hi => ?_)
      fits.result.concur
    refine (fits.formals i ?_).concur
    rw [demand_span, reach, span]
    omega

/-!
### What was merged is compatible with the merge
-/

/-- A shape that constructs no class is compatible with one that requires no more arguments and
    overlaps it at each position that it requires, and in the result. -/
theorem compatible_of_overlap (required : u.required.length ≤ s.required.length)
    (inhabited : some .bottom ∉ s.required)
    (formals : ∀ i, i < s.required.length → s.formalAt? i ≠ some .bottom →
      Slot.Overlap (s.formalAt? i) (u.formalAt? i))
    (returned : s.returned ≠ some .bottom → Slot.Overlap s.returned u.returned) :
    s.Compatible u := by
  refine ⟨fun i hi => ?_, fun hs _ => returned hs⟩
  rw [Nat.max_eq_left required] at hi
  refine formals i hi fun bottom => inhabited ?_
  rw [← bottom, formalAt?, List.getD_append _ _ _ _ hi, List.getD_eq_getElem _ _ hi]
  exact List.getElem_mem hi

/-- Two shapes that construct no class are compatible with what they are loosely merged to. -/
theorem compatible_of_assembled (assembled : Assembled .loose s t u) (plains : s.owner = none)
    (plaint : t.owner = none) (inhabiteds : some .bottom ∉ s.required)
    (inhabitedt : some .bottom ∉ t.required) : s.Compatible u ∧ t.Compatible u := by
  have required : u.required.length = min s.required.length t.required.length :=
    assembled.required
  have formals : ∀ i, i < max s.span t.span →
      Slot.Pooled .join (s.formalAt? i) (t.formalAt? i) (u.formalAt? i) := assembled.formals
  have result : Slot.Pooled .join s.returned t.returned u.returned := by
    obtain ⟨c, hc, result⟩ := assembled.result
    rw [returned_of_plain plains, returned_of_plain plaint, returned_of_plain assembled.owner,
      result]
    obtain ⟨a, b, ha, hb, -⟩ := Slot.combine_eq_ok.1 hc
    rw [ha, hb] at hc ⊢
    exact .both hc
  constructor
  · refine compatible_of_overlap (by omega) inhabiteds (fun i hi => ?_) result.overlap.1
    exact (formals i (by rw [span, span]; omega)).overlap.1
  · refine compatible_of_overlap (by omega) inhabitedt (fun i hi => ?_) result.overlap.2
    exact (formals i (by rw [span, span]; omega)).overlap.2

end Shape

/-!
### Main theorems
-/

theorem Signature.DeeplyValid.loosen {f : Signature} (h : f.DeeplyValid) :
    f.loosen.DeeplyValid := by
  cases f with
  | top loose => exact Signature.all_iff.2 ⟨rfl, by simp [Signature.loosen]⟩
  | shaped s => exact Signature.all_iff.2 ⟨h.own, fun t ht => h.slot ht⟩

/-- The approximate test never rejects what the exact test accepts. Let two deeply valid signatures
    be precise themselves, let the first construct no class, and let no formal of either be of the
    type of no value. If the first is a subtype of the second, then they pass the approximate test
    as soon as one of them is marked loose. -/
theorem isCompatibleWith_of_isSubtypeOf {f g : Signature} (hf : f.DeeplyValid)
    (hg : g.DeeplyValid) (precisef : f.isLoose = false) (preciseg : g.isLoose = false)
    (plain : f.owner? = none) (inhabitedf : some .bottom ∉ f.formals)
    (inhabitedg : some .bottom ∉ g.formals) (h : f.isSubtypeOf g = .ok true) :
    f.loosen.isCompatibleWith g = .ok true ∧ f.isCompatibleWith g.loosen = .ok true := by
  have left := Signature.isCompatibleWith_decides hf.loosen hg (.inl (by cases f <;> rfl))
  have right := Signature.isCompatibleWith_decides hf hg.loosen (.inr (by cases g <;> rfl))
  rw [left.eq_true_iff, right.eq_true_iff]
  match f, g with
  | .top _, .top _ | .top _, .shaped _ | .shaped _, .top _ => exact ⟨trivial, trivial⟩
  | .shaped s, .shaped t =>
      obtain ⟨formals, returned⟩ := Shape.compatible_of_isSubtypeOf hf hg precisef preciseg plain
        inhabitedf inhabitedg h
      exact ⟨⟨formals, returned⟩, ⟨formals, returned⟩⟩

/-- The theorem at a shape that takes a loose function and anything after it, and a variadic
    constructor with an unknown formal. -/
theorem isCompatibleWith_of_isSubtypeOf_variadic :
    let inner : Signature := .shaped
      { required := [some .unknown], result := some .top, loose := true }
    let f : Signature := .shaped
      { required := [some (.callableOf inner)], optional := [some .top],
        result := some (.instanceOf ⟨"Foo", 0⟩) }
    let g : Signature := .shaped
      { required := [some (.callableOf inner), some .unknown],
        rest := some (.ofPrimitives { string := true }), result := some .unknown,
        owner := some ⟨"Foo", 0⟩ }
    f.isSubtypeOf g = .ok true ∧
      f.loosen.isCompatibleWith g = .ok true ∧ f.isCompatibleWith g.loosen = .ok true := by
  intro inner f g
  have subtype : f.isSubtypeOf g = .ok true := by decide +kernel
  exact ⟨subtype, isCompatibleWith_of_isSubtypeOf (f := f) (g := g) (by decide) (by decide) rfl rfl
    rfl (by simp [f, Signature.formals, Shape.formals, Ty.callableOf, Ty.bottom])
    (by simp [g, Signature.formals, Shape.formals, Ty.callableOf, Ty.bottom, Ty.ofPrimitives])
    subtype⟩

/-- A merged approximation stays compatible with what was merged into it. Let two deeply valid
    shapes differ, one of them be loose, neither be bottom-shaped nor construct a class, and no
    required formal be of the type of no value. Then both bounds are one signature, with which both
    pass the approximate test. -/
theorem summary_compatible {s t : Shape} (valids : (Signature.shaped s).DeeplyValid)
    (validt : (Signature.shaped t).DeeplyValid) (loose : s.loose = true ∨ t.loose = true)
    (differ : (Signature.shaped s).same (.shaped t) = false)
    (leasts : (Signature.shaped s).isBottom = false)
    (leastt : (Signature.shaped t).isBottom = false) (plains : s.owner = none)
    (plaint : t.owner = none) (inhabiteds : some .bottom ∉ s.required)
    (inhabitedt : some .bottom ∉ t.required) :
    ∃ u : Signature, Callable.join (some (.shaped s)) (some (.shaped t)) = .ok (some u) ∧
      Callable.meet (some (.shaped s)) (some (.shaped t)) = .ok (some u) ∧
      (Signature.shaped s).isCompatibleWith u = .ok true ∧
      (Signature.shaped t).isCompatibleWith u = .ok true := by
  obtain ⟨u, hu, -, assembled⟩ :=
    Shape.exists_loose_merge valids validt (by simpa using loose) differ leasts leastt
  have validu : (Signature.shaped u).DeeplyValid := by
    obtain ⟨v, hv, deep⟩ := Callable.combine_total .join valids validt
    obtain rfl : v = .shaped u := by simpa [hu .join] using hv.symm
    exact deep
  have loosened : (Signature.shaped u).isLoose = true := assembled.loose
  obtain ⟨left, right⟩ :=
    Shape.compatible_of_assembled assembled plains plaint inhabiteds inhabitedt
  exact ⟨.shaped u, hu .join, hu .meet,
    (Signature.isCompatibleWith_decides valids validu (.inr loosened)).eq_true_iff.2 left,
    (Signature.isCompatibleWith_decides validt validu (.inr loosened)).eq_true_iff.2 right⟩

/-- The theorem at a loose variadic shape that takes functions, and a precise one that requires one
    more argument, of unknown type. -/
theorem summary_compatible_variadic :
    let s : Shape :=
      { required := [some (.callableOf .bottom)], rest := some (.callableOf (.top true)),
        result := some (.instanceOf ⟨"Foo", 0⟩), loose := true }
    let t : Shape :=
      { required := [some .top, some .unknown], optional := [some .bottom],
        result := some (.callableOf .bottom) }
    ∃ u : Signature, Callable.join (some (.shaped s)) (some (.shaped t)) = .ok (some u) ∧
      Callable.meet (some (.shaped s)) (some (.shaped t)) = .ok (some u) ∧
      (Signature.shaped s).isCompatibleWith u = .ok true ∧
      (Signature.shaped t).isCompatibleWith u = .ok true := by
  intro s t
  exact summary_compatible (s := s) (t := t) (by decide) (by decide) (.inl rfl) (by decide)
    (by decide) (by decide) rfl rfl (by simp [s, Ty.callableOf, Ty.bottom])
    (by simp [t, Ty.bottom])

end SignatureLattice
