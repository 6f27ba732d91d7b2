/-
Module: SignatureLattice.Proofs.Observations
Purpose: Narrowing a signature by what is observed, one observation after the other. An
  approximation never narrows a precise signature, and a precise observation is met with it, so a
  run of observations comes to the meet of the precise ones. Meets accept further arguments where
  either operand does, so at the outermost level any tails match; the types in the slots are joined,
  and these associate as long as further arguments ask nothing there. So the order of the
  observations does not matter.
Main exports: Signature.specializeAll, Signature.meetAll, Signature.Certain,
  Signature.specializeAll_eq_meetAll, Signature.foldl_bound_perm, specializeAll_perm
-/
import SignatureLattice.Proofs.LeastUpperBound
import SignatureLattice.Proofs.Totality

namespace SignatureLattice

open Outcome

/-!
### Runs of observations
-/

/-- Narrows a signature by one observation after the other. -/
def Signature.specializeAll (f : Signature) (observations : List Signature) :
    Except Violation Signature :=
  observations.foldlM (fun r o => r.specialize (some o) >>= Callable.require) f

/-- Meets a signature with one other after the other. -/
def Signature.meetAll (f : Signature) (others : List Signature) : Except Violation Signature :=
  others.foldlM (fun r g => Callable.meet (some r) (some g) >>= Callable.require) f

/-- A type is plain when every signature that is nested in it is. -/
abbrev Ty.Plain (t : Ty) : Prop :=
  t.All (fun _ => True) Signature.IsPlain

/-- A signature that tells for certain what it tells: it is precise and complete, regular like all
    that the library builds, and the types in its slots are plain. It may itself take further
    arguments, of any plain type, but the signatures that are nested in it may not. -/
structure Signature.Certain (f : Signature) : Prop where
  precise : f.isLoose = false
  valid : f.validate = .ok ()
  regular : f.Regular
  plain : ∀ t, some t ∈ f.slots → t.Plain

instance (f : Signature) : Decidable f.Certain :=
  decidable_of_iff (f.isLoose = false ∧ f.validate = .ok () ∧ f.Regular ∧
      ∀ x ∈ f.slots, ∀ t ∈ x, t.Plain)
    ⟨fun ⟨precise, valid, regular, plain⟩ =>
        ⟨precise, valid, regular, fun t ht => plain _ ht t rfl⟩,
      fun ⟨precise, valid, regular, plain⟩ =>
        ⟨precise, valid, regular, fun _ hx t ht => plain t (ht ▸ hx)⟩⟩

/-!
### Free slots

Inside the slots further arguments ask nothing. Bounds keep it so, and where it is so on both sides
a meet meets aligned signatures only.
-/

theorem MergeRule.free_of_mergeRest {rule : MergeRule} {x y z : Slot}
    (hx : x.all Ty.isTop = true) (hy : y.all Ty.isTop = true) (h : rule.mergeRest x y = .ok z) :
    z.all Ty.isTop = true := by
  have top : ∀ {bound : Bound} {a b c : Ty}, a.isTop = true → b.isTop = true →
      Slot.combine bound (some a) (some b) = .ok c → c.isTop = true := by
    intro bound a b c ha hb h
    rw [Ty.isTop_iff.1 ha, Ty.isTop_iff.1 hb, Slot.combine_some, Ty.combine] at h
    obtain rfl := Except.ok.inj h
    cases bound <;> rfl
  cases rule with
  | loose =>
      obtain rfl := Except.ok.inj h
      rfl
  | precise bound =>
      have merged := MergeRule.mergeRest_precise.1 h
      cases bound with
      | join =>
          cases (merged : Slot.Shared .meet x y z) with
          | lacking absent => rfl
          | both bounded => exact top hx hy bounded
      | meet =>
          cases (merged : Slot.Pooled .join x y z) with
          | neither => rfl
          | left a => exact hx
          | right b => exact hy
          | both bounded => exact top hx hy bounded

/-- Bounds of signatures of which further arguments ask nothing are such. -/
theorem Inherited.freeTail : Inherited (fun _ => True) Signature.FreeTail where
  union _ _ := trivial
  inter _ _ := trivial
  top _ _ := trivial
  merge hs ht h := MergeRule.free_of_mergeRest hs ht (Shape.rest_of_merge h)

theorem Ty.All.callable {C : ClassSet → Prop} {Q : Signature → Prop} {t : Ty} {f : Signature}
    (h : t.All C Q) (hf : t.callable? = some f) : f.All C Q := by
  cases t with
  | top => simp [Ty.callable?] at hf
  | unknown => simp [Ty.callable?] at hf
  | union p c callable => exact (Ty.all_union.1 h).2 f hf

/-- In the slots of the signature, further arguments ask nothing at any depth. -/
def Signature.FreeSlots (f : Signature) : Prop :=
  ∀ t, some t ∈ f.slots → t.All (fun _ => True) Signature.FreeTail

namespace Signature.FreeSlots

variable {bound : Bound} {f g u : Signature}

theorem of_combine (hf : f.FreeSlots) (hg : g.FreeSlots)
    (h : Signature.combine bound f g = .ok u) : u.FreeSlots := by
  rcases Signature.combine_cases h with
    rfl | rfl | ⟨loose, still, -, rfl⟩ | ⟨s, t, v, rfl, rfl, rfl, merged⟩
  · exact hf
  · exact hg
  · intro t ht
    simp at ht
  · intro z hz
    rcases Shape.supply_of_merge merged hz with hz | hz | ⟨dir, a, b, ha, hb, hab⟩
    · exact hf z hz
    · exact hg z hz
    · exact Ty.all_of_combine .freeTail (hf a ha) (hg b hb) hab

theorem forget {keep : Bool} (h : f.FreeSlots) : (f.forget keep).FreeSlots := by
  have own : ∀ g : Signature, g.FreeTail → (g.forget keep).FreeTail := by
    rintro (loose | s) free
    · trivial
    · rw [Signature.FreeTail] at free
      rw [Signature.forget_shaped, Signature.FreeTail, Shape.forget_rest]
      cases hr : s.rest with
      | none => rfl
      | some r => simpa [hr] using free
  intro t ht
  rw [Signature.forget_slots, List.mem_map] at ht
  obtain ⟨x, hx, eq⟩ := ht
  cases x with
  | none => simp at eq
  | some a =>
      obtain rfl := Option.some.inj eq
      exact (h a hx).forget trivial own

/-- Whether or not their own tails match, such signatures are aligned for a meet. -/
theorem aligned (hf : f.FreeSlots) (hg : g.FreeSlots) : f.Aligned .meet g := by
  match f, g with
  | .top _, _ => exact .top_left
  | .shaped _, .top _ => exact .top_right
  | .shaped s, .shaped t =>
      have slots : ∀ {x y : Slot}, x ∈ s.slots → y ∈ t.slots → ∀ (bound : Bound) (f g : Signature),
          Slot.callable? x = some f → Slot.callable? y = some g → f.Aligned bound g := by
        intro x y hx hy bound f g eqf eqg
        obtain ⟨a, rfl, eqf⟩ := Option.bind_eq_some_iff.1 eqf
        obtain ⟨b, rfl, eqg⟩ := Option.bind_eq_some_iff.1 eqg
        have freef := (hf a hx).callable eqf
        have freeg := (hg b hy).callable eqg
        exact Signature.aligned_of_freeTail freef freeg bound
      refine .shaped (fun join => by simp at join) (fun i => ?_) ?_
      · exact slots (s.formalAt?_mem_slots i) (t.formalAt?_mem_slots i) _
      · exact slots s.result_mem_slots t.result_mem_slots _

end Signature.FreeSlots

/-!
### Meets of many signatures
-/

/-- What the law asks of the signatures that are met. -/
structure Signature.Meetable (f : Signature) : Prop where
  definite : f.Definite
  free : f.FreeSlots

/-- Deep properties of a certain signature go from its slots to the signature. -/
theorem Signature.Certain.meetable {f : Signature} (h : f.Certain) : f.Meetable where
  definite := by
    have slots : ∀ t, some t ∈ f.slots →
        t.All (fun _ => True) fun g => g.validate = .ok () ∧ g.isLoose = false := fun t ht =>
      (h.plain t ht).imp (fun _ => id) fun g hg => by
        cases g with
        | top loose => exact ⟨rfl, hg⟩
        | shaped s => exact ⟨hg.2.1, hg.1⟩
    have all : f.All (fun _ => True) fun g => g.validate = .ok () ∧ g.isLoose = false :=
      Signature.all_iff.2 ⟨⟨h.valid, h.precise⟩, slots⟩
    exact ⟨all.imp (fun _ => id) fun _ => And.left, h.regular,
      all.imp (fun _ => id) fun _ => And.right⟩
  free t ht := (h.plain t ht).imp (fun _ => id) fun _ => Signature.IsPlain.freeTail

namespace Signature.Meetable

variable {f g : Signature}

theorem bound (hf : f.Meetable) (hg : g.Meetable) : (Signature.bound .meet f g).Meetable where
  definite := hf.definite.bound .meet hg.definite
  free := hf.free.of_combine hg.free
    (Signature.combine_eq_bound .meet hf.definite.valid hg.definite.valid)

theorem foldl {l : List Signature} (hf : f.Meetable) (hl : ∀ g ∈ l, g.Meetable) :
    (l.foldl (Signature.bound .meet) f).Meetable := by
  induction l generalizing f with
  | nil => exact hf
  | cons g l ih =>
      exact ih (hf.bound (hl g (List.mem_cons_self ..))) fun h hh =>
        hl h (List.mem_cons_of_mem g hh)

theorem meet_eq (hf : f.Meetable) (hg : g.Meetable) :
    (Callable.meet (some f) (some g) >>= Callable.require) =
      .ok (Signature.bound .meet f g) := by
  rw [Callable.meet, Callable.combine_eq_bound .meet hf.definite.valid hg.definite.valid]
  rfl

/-- Meeting a signature with others yields their bound. -/
theorem meetAll_eq {l : List Signature} (hf : f.Meetable) (hl : ∀ g ∈ l, g.Meetable) :
    f.meetAll l = .ok (l.foldl (Signature.bound .meet) f) := by
  induction l generalizing f with
  | nil => rfl
  | cons g l ih =>
      have hg := hl g (List.mem_cons_self ..)
      rw [Signature.meetAll, List.foldlM_cons, hf.meet_eq hg]
      exact ih (hf.bound hg) fun h hh => hl h (List.mem_cons_of_mem g hh)

/-- What is left of a bound of many is the bound of what is left of them. -/
theorem forget_foldl {l : List Signature} (hf : f.Meetable) (hl : ∀ g ∈ l, g.Meetable) :
    (l.foldl (Signature.bound .meet) f).forget true =
      (l.map (Signature.forget true)).foldl (Signature.bound .meet) (f.forget true) := by
  induction l generalizing f with
  | nil => rfl
  | cons g l ih =>
      have hg := hl g (List.mem_cons_self ..)
      rw [List.map_cons, List.foldl_cons, List.foldl_cons,
        ← Signature.forget_bound .meet hf.definite.valid hg.definite.valid]
      exact ih (hf.bound hg) fun h hh => hl h (List.mem_cons_of_mem g hh)

end Signature.Meetable

/-- Among exact signatures with free slots, meeting one more and then another comes to the same in
    both orders. -/
theorem Signature.bound_right_comm {f g h : Signature} (hf : f.Exact ∧ f.FreeSlots)
    (hg : g.Exact ∧ g.FreeSlots) (hh : h.Exact ∧ h.FreeSlots) :
    Signature.bound .meet (Signature.bound .meet f g) h =
      Signature.bound .meet (Signature.bound .meet f h) g := by
  calc Signature.bound .meet (Signature.bound .meet f g) h
      = Signature.bound .meet f (Signature.bound .meet g h) :=
        Signature.bound_assoc hf.1 hg.1 hh.1 (hf.2.aligned hg.2) (hf.2.aligned hh.2)
          (hg.2.aligned hh.2)
    _ = Signature.bound .meet f (Signature.bound .meet h g) := by
        rw [Signature.bound_comm .meet hg.1 hh.1]
    _ = Signature.bound .meet (Signature.bound .meet f h) g :=
        (Signature.bound_assoc hf.1 hh.1 hg.1 (hf.2.aligned hh.2) (hf.2.aligned hg.2)
          (hh.2.aligned hg.2)).symm

/-- A bound of many exact signatures with free slots does not depend on their order. -/
theorem Signature.foldl_bound_perm {f : Signature} {l m : List Signature}
    (hf : f.Exact ∧ f.FreeSlots) (hl : ∀ g ∈ l, g.Exact ∧ g.FreeSlots) (perm : l.Perm m) :
    l.foldl (Signature.bound .meet) f = m.foldl (Signature.bound .meet) f := by
  have met : ∀ {f g : Signature}, f.Exact ∧ f.FreeSlots → g.Exact ∧ g.FreeSlots →
      (Signature.bound .meet f g).Exact ∧ (Signature.bound .meet f g).FreeSlots := fun hf hg =>
    ⟨Signature.exact_bound .meet hf.1 hg.1,
      hf.2.of_combine hg.2 (Signature.combine_eq_bound .meet hf.1.deeplyValid hg.1.deeplyValid)⟩
  induction perm generalizing f with
  | nil => rfl
  | cons g _ ih =>
      exact ih (met hf (hl g (List.mem_cons_self ..))) fun h hh =>
        hl h (List.mem_cons_of_mem g hh)
  | swap g h l =>
      have hg := hl g (List.mem_cons_of_mem h (List.mem_cons_self ..))
      have hh := hl h (List.mem_cons_self ..)
      rw [List.foldl_cons, List.foldl_cons, List.foldl_cons, List.foldl_cons,
        Signature.bound_right_comm hf hh hg]
  | trans first _ ih₁ ih₂ =>
      exact (ih₁ hf hl).trans (ih₂ hf fun g hg => hl g (first.mem_iff.2 hg))

/-!
### One observation, and a run of them
-/

/-- An approximation leaves a precise signature as it is. -/
theorem Signature.specialize_of_loose {f o : Signature} (hf : f.isLoose = false)
    (ho : o.isLoose = true) : f.specialize (some o) = .ok (some f) := by
  simp [Signature.specialize, hf, ho]

/-- A precise observation is met with the signature. -/
theorem Signature.specialize_of_precise (f : Signature) {o : Signature} (ho : o.isLoose = false) :
    f.specialize (some o) = Callable.meet (some f) (some o) := by
  simp [Signature.specialize, ho]

/-- At every point of a run the signature is precise, so the run passes over the approximations. -/
theorem Signature.specializeAll_eq_meetAll {f : Signature} {observations : List Signature}
    (hf : f.Meetable) (observed : ∀ o ∈ observations, o.isLoose = true ∨ o.Meetable) :
    f.specializeAll observations = f.meetAll (observations.filter fun o => !o.isLoose) := by
  induction observations generalizing f with
  | nil => rfl
  | cons o observations ih =>
      have later : ∀ o' ∈ observations, o'.isLoose = true ∨ o'.Meetable := fun o' ho' =>
        observed o' (List.mem_cons_of_mem o ho')
      rw [Signature.specializeAll, List.foldlM_cons]
      cases loose : o.isLoose with
      | true =>
          rw [List.filter_cons_of_neg (by simp [loose]),
            Signature.specialize_of_loose hf.definite.precise.own loose]
          exact ih hf later
      | false =>
          have ho : o.Meetable := (observed o (List.mem_cons_self ..)).resolve_left (by simp [loose])
          rw [List.filter_cons_of_pos (by simp [loose]), Signature.specialize_of_precise f loose,
            Signature.meetAll, List.foldlM_cons, hf.meet_eq ho]
          exact ih (hf.bound ho) later

/-!
### Main theorem
-/

/-- Narrowing a certain signature by observations, each of which is an approximation of any form or
    certain itself, never fails. It yields a precise signature, which is the meet of the signature
    with the precise observations alone, and an equal one in every order of the observations. -/
theorem specializeAll_perm {f : Signature} {observations reordered : List Signature}
    (hf : f.Certain) (observed : ∀ o ∈ observations, o.isLoose = true ∨ o.Certain)
    (perm : observations.Perm reordered) :
    ∃ r r' : Signature, f.specializeAll observations = .ok r ∧ r.isLoose = false ∧
      f.meetAll (observations.filter fun o => !o.isLoose) = .ok r ∧
      f.specializeAll reordered = .ok r' ∧ r'.isLoose = false ∧ r.same r' = true := by
  let precise : List Signature → List Signature := List.filter fun o => !o.isLoose
  have meetable : ∀ o ∈ observations, o.isLoose = true ∨ o.Meetable := fun o ho =>
    (observed o ho).imp_right Signature.Certain.meetable
  have kept : ∀ o ∈ precise observations, o.Meetable := by
    intro o ho
    obtain ⟨mem, precise⟩ := List.mem_filter.1 ho
    exact (meetable o mem).resolve_left (by simpa using precise)
  have perm' : (precise observations).Perm (precise reordered) := perm.filter _
  have kept' : ∀ o ∈ precise reordered, o.Meetable := fun o ho =>
    kept o (perm'.mem_iff.2 ho)
  have run := Signature.specializeAll_eq_meetAll hf.meetable meetable
  have meetable' : ∀ o ∈ reordered, o.isLoose = true ∨ o.Meetable := fun o ho =>
    meetable o (perm.mem_iff.2 ho)
  have run' := Signature.specializeAll_eq_meetAll hf.meetable meetable'
  have met := hf.meetable.meetAll_eq kept
  have met' := hf.meetable.meetAll_eq kept'
  refine ⟨_, _, run.trans met, (hf.meetable.foldl kept).definite.precise.own, met,
    run'.trans met', (hf.meetable.foldl kept').definite.precise.own, ?_⟩
  apply Signature.same_of_forget (k := true)
  rw [hf.meetable.forget_foldl kept, hf.meetable.forget_foldl kept']
  have left : ∀ {o : Signature}, o.Meetable → (o.forget true).Exact ∧ (o.forget true).FreeSlots :=
    fun ho => ⟨ho.definite.exact, ho.free.forget⟩
  refine Signature.foldl_bound_perm (left hf.meetable) (fun g hg => ?_) (perm'.map _)
  obtain ⟨o, ho, rfl⟩ := List.mem_map.1 hg
  exact left (kept o ho)

/-- The theorem at a variadic constructor of functions, narrowed by a loose signature without a
    result, by variadic signatures of other arities that take and return functions, and by the top
    sentinels. -/
theorem specializeAll_perm_variadic :
    let inner : Signature := .shaped { required := [some .unknown], result := some .top }
    let f : Signature := .shaped
      { required := [some (.callableOf inner)], rest := some (.ofPrimitives { number := true }),
        result := some (.callableOf .bottom), owner := some ⟨"Foo", 0⟩ }
    let g : Signature := .shaped
      { optional := [some (.callableOf .bottom), some .top], rest := some (.callableOf inner),
        result := some (.callableOf inner) }
    let h : Signature := .shaped { result := some .unknown, captures := [("x", none)] }
    let guess : Signature := .shaped { required := [none], loose := true }
    ∃ r r' : Signature, f.specializeAll [guess, g, .top true, h, .top false] = .ok r ∧
      f.specializeAll [.top false, h, .top true, g, guess] = .ok r' ∧ r.same r' = true := by
  intro inner f g h guess
  have hf : f.Certain := by decide
  have observed : ∀ o ∈ [guess, g, .top true, h, .top false], o.isLoose = true ∨ o.Certain := by
    decide
  obtain ⟨r, r', first, -, -, second, -, same⟩ :=
    specializeAll_perm hf observed (List.reverse_perm _).symm
  exact ⟨r, r', first, second, same⟩

end SignatureLattice
