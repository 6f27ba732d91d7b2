/-
Module: SignatureLattice.Proofs.Chaining
Purpose: When absorption chains: of three types of which each absorbs the one before in a bound, the
  last one need not absorb the first. What a signature demands of further arguments is forgotten by
  one that takes none, and is asked for again by a longer third one. Apart from that absorption
  chains at every depth, in particular wherever signatures take further arguments alike.
Main exports: Signature.Chain, Slot.chain_forget, Ty.bound_trans_iff, Ty.chain_of_aligned
-/
import SignatureLattice.Proofs.StandingIn
import SignatureLattice.Proofs.Throughout

namespace SignatureLattice

/-!
### Chains
-/

/-- Nothing that the first shape demands is hidden from the last one by the shape between: the first
    one is no longer unless the last one takes further arguments, and past a shape between that
    takes none its own further arguments bear the formals of the last one. -/
structure Shape.Bridged (s t v : Shape) : Prop where
  span : v.rest = none → s.span ≤ v.span
  rest : t.rest = none → ∀ i, t.span ≤ i → i < v.span →
    Slot.GivesWay .meet s.rest (v.formalAt? i)

/-- Three signatures chain in a bound when they are bridged if they are joined, and so are all that
    are nested in them at the same place and are joined in the course of it. -/
inductive Signature.Chain : Bound → Signature → Signature → Signature → Prop where
  | top {bound : Bound} {f g h : Signature} (extreme : f.isTop ∨ g.isTop ∨ h.isTop) :
      Chain bound f g h
  | shaped {bound : Bound} {s t v : Shape}
      (bridged : bound = .join → s.Bridged t v)
      (formals : ∀ i f g h, Slot.callable? (s.formalAt? i) = some f →
        Slot.callable? (t.formalAt? i) = some g → Slot.callable? (v.formalAt? i) = some h →
        Chain bound.dual f g h)
      (results : ∀ f g h, Slot.callable? s.result = some f → Slot.callable? t.result = some g →
        Slot.callable? v.result = some h → Chain bound f g h) :
      Chain bound (.shaped s) (.shaped t) (.shaped v)

/-- Three types chain when their callable parts do. -/
def Ty.Chain (bound : Bound) (a b c : Ty) : Prop :=
  ∀ f g h, a.callable? = some f → b.callable? = some g → c.callable? = some h →
    Signature.Chain bound f g h

/-- Three slots chain when the types in them do. -/
def Slot.Chain (bound : Bound) (x y z : Slot) : Prop :=
  ∀ a b c, x = some a → y = some b → z = some c → Ty.Chain bound a b c

section

variable {bound : Bound}

/-- Three signatures chain when shapes are bridged throughout their bounds. -/
theorem Signature.chain_iff {f g h : Signature} :
    Signature.Chain bound f g h ↔ Signature.Throughout Shape.Bridged bound f g h := by
  constructor
  · intro chain
    induction chain with
    | top extreme => exact .top extreme
    | shaped bridged _ _ formals results => exact .shaped bridged formals results
  · intro throughout
    induction throughout with
    | top extreme => exact .top extreme
    | shaped bridged _ _ formals results => exact .shaped bridged formals results

theorem Ty.chain_iff {a b c : Ty} :
    Ty.Chain bound a b c ↔ Ty.Throughout Shape.Bridged bound a b c := by
  simp only [Ty.Chain, Ty.Throughout, Signature.chain_iff]

theorem Slot.chain_iff {x y z : Slot} :
    Slot.Chain bound x y z ↔ Slot.Throughout Shape.Bridged bound x y z := by
  simp only [Slot.Chain, Slot.Throughout, Ty.chain_iff]

theorem Signature.chain_shaped_iff {s t v : Shape} :
    Signature.Chain bound (.shaped s) (.shaped t) (.shaped v) ↔
      (bound = .join → s.Bridged t v) ∧
        (∀ i, Slot.Chain bound.dual (s.formalAt? i) (t.formalAt? i) (v.formalAt? i)) ∧
        Slot.Chain bound s.result t.result v.result := by
  simp only [Signature.chain_iff, Slot.chain_iff]
  exact Signature.throughout_shaped_iff

end

/-!
### What is left of a chain
-/

theorem Shape.bridged_forget {s t v : Shape} :
    (s.forget true).Bridged (t.forget true) (v.forget true) ↔ s.Bridged t v := by
  constructor
  · rintro ⟨span, rest⟩
    simp only [forget_span, forget_rest, forget_formalAt?, Slot.forget_eq_none_iff,
      Slot.givesWay_forget] at span rest
    exact ⟨span, rest⟩
  · rintro ⟨span, rest⟩
    refine ⟨?_, ?_⟩
    · simpa using span
    · simpa [Slot.givesWay_forget] using rest

/-- Chaining is a matter of what is left of three slots. -/
theorem Slot.chain_forget (bound : Bound) (x y z : Slot) :
    Slot.Chain bound (Slot.forget true x) (Slot.forget true y) (Slot.forget true z) ↔
      Slot.Chain bound x y z := by
  simp only [Slot.chain_iff]
  exact Slot.throughout_forget (fun _ _ _ => Shape.bridged_forget) bound x y z

/-!
### Shapes
-/

/-- Of three types of which each absorbs the one before, the last absorbs the first just when they
    chain, and aligned ones do. -/
private def ComposesAt (a : Ty) : Prop :=
  ∀ (bound : Bound) (b c : Ty), a.Exact → b.Exact → c.Exact →
    Ty.bound bound a b = b → Ty.bound bound b c = c →
    (Ty.bound bound a c = c ↔ Ty.Chain bound a b c) ∧
      (a.Aligned bound b → b.Aligned bound c → Ty.Chain bound a b c)

namespace Shape

variable {bound : Bound} {s t u v : Shape}

/-- Where an absorbed shape demands something, so does a shape that absorbs it in a lower bound. -/
private theorem Pointwise.exists_of_meet (h : Pointwise .meet s t u) {i : Nat} {a : Ty}
    (ha : s.formalAt? i = some a) : ∃ c, u.formalAt? i = some c := by
  rw [h.formalAt?_meet, ha]
  cases t.formalAt? i <;> simp

/-- A shape that is absorbed by one that takes further arguments of every type takes them, too. -/
private theorem Pointwise.rest_of_top (h : Pointwise .join s t t) (rest : t.rest = some .top) :
    s.rest = some .top := by
  obtain ⟨a, b, ha, hb, absorbed⟩ := Option.map₂_eq_some_iff.1 (h.rest.symm.trans rest)
  obtain rfl := Option.some.inj (rest.symm.trans hb)
  obtain rfl : a = .top := by simpa [Bound.pick, Bound.dual] using absorbed
  exact ha

private theorem composes_formal (ih : ∀ a, some a ∈ s.slots → ComposesAt a)
    (hs : (Signature.shaped s).Exact) (ht : (Signature.shaped t).Exact)
    (hv : (Signature.shaped v).Exact) (first : Pointwise bound s t t)
    (second : Pointwise bound t v v) {i : Nat} {a b c : Ty} (ha : s.formalAt? i = some a)
    (hb : t.formalAt? i = some b) (hc : v.formalAt? i = some c) :
    (Ty.bound bound.dual a c = c ↔ Ty.Chain bound.dual a b c) ∧
      (a.Aligned bound.dual b → b.Aligned bound.dual c → Ty.Chain bound.dual a b c) :=
  ih a (ha ▸ s.formalAt?_mem_slots i) bound.dual b c (exact_formalAt? hs i a ha)
    (exact_formalAt? ht i b hb) (exact_formalAt? hv i c hc) (first.absorb_formal ha hb)
    (second.absorb_formal hb hc)

private theorem composes_result (ih : ∀ a, some a ∈ s.slots → ComposesAt a)
    (hs : (Signature.shaped s).Exact) (ht : (Signature.shaped t).Exact)
    (hv : (Signature.shaped v).Exact) (first : Pointwise bound s t t)
    (second : Pointwise bound t v v) {a b c : Ty} (ha : s.result = some a)
    (hb : t.result = some b) (hc : v.result = some c) :
    (Ty.bound bound a c = c ↔ Ty.Chain bound a b c) ∧
      (a.Aligned bound b → b.Aligned bound c → Ty.Chain bound a b c) :=
  ih a (ha ▸ s.result_mem_slots) bound b c (exact_result hs a ha) (exact_result ht b hb)
    (exact_result hv c hc) (first.absorb_result ha hb) (second.absorb_result hb hc)

private theorem chain_of_pointwise (ih : ∀ a, some a ∈ s.slots → ComposesAt a)
    (hs : (Signature.shaped s).Exact) (ht : (Signature.shaped t).Exact)
    (hv : (Signature.shaped v).Exact) (first : Pointwise bound s t t)
    (second : Pointwise bound t v v) (whole : Pointwise bound s v v) :
    Signature.Chain bound (.shaped s) (.shaped t) (.shaped v) := by
  refine Signature.chain_shaped_iff.2 ⟨?_, fun i a b c ha hb hc => ?_, fun a b c ha hb hc => ?_⟩
  · rintro rfl
    refine ⟨whole.span_le hs, fun rest i past inside a c ha hc => ?_⟩
    have far := formalAt?_of_le (Nat.le_trans (first.span_le hs rest) past)
    rw [Ty.givesWay_iff (exact_rest hs a ha) (exact_formalAt? hv i c hc)]
    exact whole.absorb_formal (far.trans ha) hc
  · exact (composes_formal ih hs ht hv first second ha hb hc).1.1 (whole.absorb_formal ha hc)
  · exact (composes_result ih hs ht hv first second ha hb hc).1.1 (whole.absorb_result ha hc)

/-- Shapes whose tails match are bridged. -/
private theorem bridged_of_tailsMatch (hs : (Signature.shaped s).Exact)
    (ht : (Signature.shaped t).Exact) (first : Pointwise .join s t t)
    (second : Pointwise .join t v v) (hst : s.TailsMatch t) (htv : t.TailsMatch v) :
    s.Bridged t v := by
  refine ⟨fun rest => ?_, fun rest i _ _ => ?_⟩
  · have upper := second.span_le ht rest
    cases hr : t.rest with
    | none => exact Nat.le_trans (first.span_le hs hr) upper
    | some r =>
        obtain rfl := htv.eq_top rest hr
        exact Nat.le_trans (first.span_of_tops hs ht (first.rest_of_top hr) hr) upper
  · exact hst.givesWay rest _

private theorem chain_of_aligned (ih : ∀ a, some a ∈ s.slots → ComposesAt a)
    (hs : (Signature.shaped s).Exact) (ht : (Signature.shaped t).Exact)
    (hv : (Signature.shaped v).Exact) (first : Pointwise bound s t t)
    (second : Pointwise bound t v v) (hst : (Signature.shaped s).Aligned bound (.shaped t))
    (htv : (Signature.shaped t).Aligned bound (.shaped v)) :
    Signature.Chain bound (.shaped s) (.shaped t) (.shaped v) := by
  refine Signature.chain_shaped_iff.2 ⟨?_, fun i a b c ha hb hc => ?_, fun a b c ha hb hc => ?_⟩
  · rintro rfl
    exact bridged_of_tailsMatch hs ht first second (hst.tails rfl) (htv.tails rfl)
  · exact (composes_formal ih hs ht hv first second ha hb hc).2 (hst.formals i a b ha hb)
      (htv.formals i b c hb hc)
  · exact (composes_result ih hs ht hv first second ha hb hc).2 (hst.results a b ha hb)
      (htv.results b c hb hc)

/-- Where the first of three joined shapes has a formal or the last one does, and the first demands
    something, the last one demands the like, if they are bridged. -/
private theorem formal_of_bridged (hs : (Signature.shaped s).Exact)
    (ht : (Signature.shaped t).Exact) (hv : (Signature.shaped v).Exact)
    (first : Pointwise .join s t t) (bridged : s.Bridged t v)
    (inner : ∀ {i a b c}, s.formalAt? i = some a → t.formalAt? i = some b →
      v.formalAt? i = some c → Ty.bound .meet a c = c) {i : Nat} {a : Ty}
    (hi : i < max s.span v.span) (ha : s.formalAt? i = some a) :
    ∃ c, v.formalAt? i = some c ∧ Ty.bound .meet a c = c := by
  cases hc : v.formalAt? i with
  | none =>
      obtain ⟨past, rest⟩ := span_le_of_absent hv hc
      have shorter := bridged.span rest
      omega
  | some c =>
      refine ⟨c, rfl, ?_⟩
      cases hb : t.formalAt? i with
      | some b => exact inner ha hb hc
      | none =>
          obtain ⟨past, rest⟩ := span_le_of_absent ht hb
          have shorter := first.span_le hs rest
          rw [formalAt?_of_le (Nat.le_trans shorter past)] at ha
          have gives := bridged.rest rest i past (by omega) a c ha hc
          exact (Ty.givesWay_iff (exact_rest hs a ha) (exact_formalAt? hv i c hc)).1 gives

/-- Of three shapes that are met the later ones demand something where the first does. -/
private theorem formal_of_met (first : Pointwise .meet s t t) (second : Pointwise .meet t v v)
    (inner : ∀ {i a b c}, s.formalAt? i = some a → t.formalAt? i = some b →
      v.formalAt? i = some c → Ty.bound .join a c = c) {i : Nat} {a : Ty}
    (ha : s.formalAt? i = some a) : ∃ c, v.formalAt? i = some c ∧ Ty.bound .join a c = c := by
  obtain ⟨b, hb⟩ := first.exists_of_meet ha
  obtain ⟨c, hc⟩ := second.exists_of_meet hb
  exact ⟨c, hc, inner ha hb hc⟩

private theorem pointwise_of_chain (ih : ∀ a, some a ∈ s.slots → ComposesAt a)
    (hs : (Signature.shaped s).Exact) (ht : (Signature.shaped t).Exact)
    (hv : (Signature.shaped v).Exact) (first : Pointwise bound s t t)
    (second : Pointwise bound t v v)
    (chain : Signature.Chain bound (.shaped s) (.shaped t) (.shaped v)) :
    Pointwise bound s v v := by
  obtain ⟨bridged, formals, results⟩ := Signature.chain_shaped_iff.1 chain
  -- Where all three demand something, the demands compose.
  have inner : ∀ {i a b c}, s.formalAt? i = some a → t.formalAt? i = some b →
      v.formalAt? i = some c → Ty.bound bound.dual a c = c := fun ha hb hc =>
    (composes_formal ih hs ht hv first second ha hb hc).1.2 (formals _ _ _ _ ha hb hc)
  refine ⟨?_, Nat.le_max_right _ _, fun i hi => ?_, ?_, ?_⟩
  · have lower := first.required
    have upper := second.required
    cases bound with
    | join =>
        simp only [Bound.pick] at lower upper ⊢
        omega
    | meet =>
        simp only [Bound.pick] at lower upper ⊢
        omega
  · cases ha : s.formalAt? i with
    | none => rw [Option.merge_none_left]
    | some a =>
        have formal : ∃ c, v.formalAt? i = some c ∧ Ty.bound bound.dual a c = c := by
          cases bound with
          | join => exact formal_of_bridged hs ht hv first (bridged rfl) inner hi ha
          | meet => exact formal_of_met first second inner ha
        obtain ⟨c, hc, absorbs⟩ := formal
        rw [hc, Option.merge_some_some, absorbs]
  · have lower := first.rest
    have upper := second.rest
    have rests : ∀ {a b c}, s.rest = some a → t.rest = some b → v.rest = some c →
        Ty.bound bound.dual a c = c := by
      intro a b c ha hb hc
      obtain ⟨i, fars, fart, farv⟩ := exists_past s t v
      exact inner (fars.trans ha) (fart.trans hb) (farv.trans hc)
    cases bound with
    | join =>
        cases hc : v.rest with
        | none => exact (Option.map₂_none_right _ _).symm
        | some c =>
            cases hb : t.rest with
            | none => simp [hb, hc, Bound.pick] at upper
            | some b =>
                cases ha : s.rest with
                | none => simp [ha, hb, Bound.pick] at lower
                | some a => exact congrArg some (rests ha hb hc).symm
    | meet =>
        cases ha : s.rest with
        | none => exact Option.merge_none_left.symm
        | some a =>
            cases hb : t.rest with
            | none => simp [ha, hb, Bound.pick] at lower
            | some b =>
                cases hc : v.rest with
                | none => simp [hb, hc, Bound.pick] at upper
                | some c => exact congrArg some (rests ha hb hc).symm
  · obtain ⟨a, ha⟩ := exists_result hs.own.1
    obtain ⟨b, hb⟩ := exists_result ht.own.1
    obtain ⟨c, hc⟩ := exists_result hv.own.1
    have result := (composes_result ih hs ht hv first second ha hb hc).1.2
      (results a b c ha hb hc)
    rw [ha, hc, Option.map₂_some_some, result]

end Shape

/-!
### Signatures and types
-/

/-- Where one of three signatures is a top sentinel, absorption chains. -/
private theorem Signature.bound_trans_of_top {bound : Bound} {f g h : Signature} (hf : f.Exact)
    (hg : g.Exact) (hh : h.Exact) (extreme : f.isTop ∨ g.isTop ∨ h.isTop)
    (first : Signature.bound bound f g = g) (second : Signature.bound bound g h = h) :
    Signature.bound bound f h = h := by
  match f, g, h with
  | f, g, .top loose =>
      rw [Signature.top_of_exact hh] at second ⊢
      rw [Signature.bound_top_right bound hg] at second
      rw [Signature.bound_top_right bound hf]
      cases bound with
      | join => rfl
      | meet =>
          obtain rfl : g = .top false := second
          rwa [Signature.bound_top_right .meet hf] at first
  | .top loose, g, .shaped v =>
      rw [Signature.top_of_exact hf] at first ⊢
      rw [Signature.bound_top] at first ⊢
      cases bound with
      | join =>
          obtain rfl : Signature.top false = g := first
          rwa [Signature.bound_top] at second
      | meet => rfl
  | .shaped s, .top loose, .shaped v =>
      rw [Signature.top_of_exact hg] at first second
      rw [Signature.bound_top_right bound hf] at first
      rw [Signature.bound_top] at second
      cases bound with
      | join => simp [Bound.pick] at second
      | meet => simp [Bound.pick] at first
  | .shaped s, .shaped t, .shaped v => simp [Signature.isTop] at extreme

private theorem Signature.composes_of {bound : Bound} {f g h : Signature}
    (ih : ∀ a, some a ∈ f.slots → ComposesAt a) (hf : f.Exact) (hg : g.Exact) (hh : h.Exact)
    (first : Signature.bound bound f g = g) (second : Signature.bound bound g h = h) :
    (Signature.bound bound f h = h ↔ Signature.Chain bound f g h) ∧
      (f.Aligned bound g → g.Aligned bound h → Signature.Chain bound f g h) := by
  by_cases extreme : f.isTop ∨ g.isTop ∨ h.isTop
  · have chain : Signature.Chain bound f g h := .top extreme
    exact ⟨iff_of_true (Signature.bound_trans_of_top hf hg hh extreme first second) chain,
      fun _ _ => chain⟩
  · match f, g, h with
    | .shaped s, .shaped t, .shaped v =>
        have first := (Shape.bound_eq_iff hf hg hg).1 first
        have second := (Shape.bound_eq_iff hg hh hh).1 second
        rw [Shape.bound_eq_iff hf hh hh]
        exact ⟨⟨Shape.chain_of_pointwise ih hf hg hh first second,
          Shape.pointwise_of_chain ih hf hg hh first second⟩,
          Shape.chain_of_aligned ih hf hg hh first second⟩
    | .top _, _, _ | .shaped _, .top _, _ | .shaped _, .shaped _, .top _ =>
        simp [Signature.isTop] at extreme

private theorem Callable.bound_trans_of {bound : Bound} {f g h : Callable}
    (trans : ∀ f' g' h', f = some f' → g = some g' → h = some h' →
      Signature.bound bound f' h' = h')
    (first : Callable.bound bound f g = g) (second : Callable.bound bound g h = h) :
    Callable.bound bound f h = h := by
  match f, g, h with
  | some f, some g, some h => exact congrArg some (trans f g h rfl rfl rfl)
  -- An absent part absorbs only an absent one if they are joined, and every other one if met.
  | none, _, none | none, none, some _ | none, some _, some _ | some _, none, none
  | some _, none, some _ | some _, some _, none =>
      cases bound <;> simp_all [Callable.bound, Bound.pick]

/-- Where one of three types is extreme, absorption chains. -/
private theorem Ty.bound_trans_of_extreme {bound : Bound} {a b c : Ty}
    (extreme : a.isExtreme ∨ b.isExtreme ∨ c.isExtreme) (first : Ty.bound bound a b = b)
    (second : Ty.bound bound b c = c) : Ty.bound bound a c = c := by
  cases a <;> cases b <;> cases c <;> cases bound <;>
    simp_all [Bound.pick, Ty.isExtreme, Ty.isTop, Ty.isUnknown]

private theorem Ty.composesAt (a : Ty) : ComposesAt a := by
  have extremes : ∀ {bound : Bound} {a b c : Ty}, a.isExtreme ∨ b.isExtreme ∨ c.isExtreme →
      Ty.bound bound a b = b → Ty.bound bound b c = c →
      (Ty.bound bound a c = c ↔ Ty.Chain bound a b c) ∧
        (a.Aligned bound b → b.Aligned bound c → Ty.Chain bound a b c) :=
    fun extreme first second =>
      have chain := Ty.chain_iff.2 (Ty.throughout_of_extreme extreme)
      ⟨iff_of_true (Ty.bound_trans_of_extreme extreme first second) chain, fun _ _ => chain⟩
  induction a using Ty.nested_induction with
  | top => exact fun _ _ _ _ _ _ first second => extremes (.inl rfl) first second
  | unknown => exact fun _ _ _ _ _ _ first second => extremes (.inl rfl) first second
  | union p classes f ih =>
      intro bound b c ha hb hc first second
      match b, c with
      | .top, _ => exact extremes (.inr (.inl rfl)) first second
      | .unknown, _ => exact extremes (.inr (.inl rfl)) first second
      | .union .., .top => exact extremes (.inr (.inr rfl)) first second
      | .union .., .unknown => exact extremes (.inr (.inr rfl)) first second
      | .union q d g, .union r e h =>
          obtain ⟨canonicala, hf⟩ := Ty.all_union.1 ha
          obtain ⟨canonicalb, hg⟩ := Ty.all_union.1 hb
          obtain ⟨canonicalc, hh⟩ := Ty.all_union.1 hc
          rw [Ty.bound_union bound ha hb, Ty.union.injEq] at first
          rw [Ty.bound_union bound hb hc, Ty.union.injEq] at second
          obtain ⟨primitives, sets, lower⟩ := first
          obtain ⟨primitives', sets', upper⟩ := second
          have signatures : ∀ f' g' h', f = some f' → g = some g' → h = some h' →
              (Signature.bound bound f' h' = h' ↔ Signature.Chain bound f' g' h') ∧
                (f'.Aligned bound g' → g'.Aligned bound h' →
                  Signature.Chain bound f' g' h') := by
            rintro f' g' h' rfl rfl rfl
            exact Signature.composes_of (ih f' rfl) (hf f' rfl) (hg g' rfl) (hh h' rfl)
              (Option.some.inj lower) (Option.some.inj upper)
          refine ⟨⟨fun whole => ?_, fun chain => ?_⟩, fun hab hbc => ?_⟩
          · rw [Ty.bound_union bound ha hc, Ty.union.injEq] at whole
            rintro f' g' h' ⟨⟩ ⟨⟩ ⟨⟩
            exact (signatures f' g' h' rfl rfl rfl).1.1 (Option.some.inj whole.2.2)
          · have callable := Callable.bound_trans_of (fun f' g' h' eqf eqg eqh =>
              (signatures f' g' h' eqf eqg eqh).1.2 (chain f' g' h' eqf eqg eqh)) lower upper
            rw [Ty.bound_union bound ha hc, Primitives.pick_trans bound primitives primitives',
              ClassSet.pick_trans bound canonicala canonicalb canonicalc sets sets', callable]
          · exact fun f' g' h' eqf eqg eqh => (signatures f' g' h' eqf eqg eqh).2
              (hab f' g' eqf eqg) (hbc g' h' eqg eqh)

/-- Of three exact types of which each absorbs the one before in a bound, the last absorbs the first
    just when they chain. -/
theorem Ty.bound_trans_iff {bound : Bound} {a b c : Ty} (ha : a.Exact) (hb : b.Exact)
    (hc : c.Exact) (first : Ty.bound bound a b = b) (second : Ty.bound bound b c = c) :
    Ty.bound bound a c = c ↔ Ty.Chain bound a b c :=
  (a.composesAt bound b c ha hb hc first second).1

/-- Aligned types chain if each absorbs the one before. -/
theorem Ty.chain_of_aligned {bound : Bound} {a b c : Ty} (ha : a.Exact) (hb : b.Exact)
    (hc : c.Exact) (first : Ty.bound bound a b = b) (second : Ty.bound bound b c = c)
    (hab : a.Aligned bound b) (hbc : b.Aligned bound c) : Ty.Chain bound a b c :=
  (a.composesAt bound b c ha hb hc first second).2 hab hbc

end SignatureLattice
