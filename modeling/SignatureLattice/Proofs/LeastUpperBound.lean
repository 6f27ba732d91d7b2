/-
Module: SignatureLattice.Proofs.LeastUpperBound
Purpose: Among signatures that take no further arguments, join is the least upper bound for
  subtyping. The test asks whether a demand is an upper bound of itself and the tested signature, so
  that the join is above its operands because joining one of them again changes nothing, and below
  every other upper bound because joins associate.
Main exports: Signature.Plain, join_least
-/
import SignatureLattice.Proofs.Association
import SignatureLattice.Proofs.Remerging

namespace SignatureLattice

open Outcome

/-!
### Plain signatures
-/

/-- A signature is plain in itself when it is the precise top sentinel, or it is precise, complete
    and takes no further arguments unless it is bottom-shaped. -/
def Signature.IsPlain : Signature → Prop
  | .top loose => loose = false
  | .shaped s => s.loose = false ∧ s.validate = .ok () ∧ (s.rest.isNone ∨ s.isBottom = true)

instance : DecidablePred Signature.IsPlain
  | .top loose => inferInstanceAs (Decidable (loose = false))
  | .shaped s => inferInstanceAs (Decidable (s.loose = false ∧ _ ∧ _))

/-- A signature is plain when it is plain in itself and so are all that are nested in it. -/
abbrev Signature.Plain (f : Signature) : Prop :=
  f.All (fun _ => True) Signature.IsPlain

theorem Signature.Plain.definite {f : Signature} (h : f.Plain) (regular : f.Regular) :
    f.Definite where
  valid := h.imp (fun _ => id) fun g hg => by
    cases g with
    | top loose => rfl
    | shaped s => exact hg.2.1
  regular := regular
  precise := h.imp (fun _ => id) fun g hg => by
    cases g with
    | top loose => exact hg
    | shaped s => exact hg.1

/-- A signature of which further arguments ask nothing: it takes none, or it takes them of any
    type. -/
def Signature.FreeTail : Signature → Prop
  | .top _ => True
  | .shaped s => s.rest.all Ty.isTop = true

theorem Signature.IsPlain.freeTail {f : Signature} (h : f.IsPlain) : f.FreeTail := by
  cases f with
  | top loose => trivial
  | shaped s =>
      rcases h.2.2 with absent | least
      · rw [FreeTail, Option.isNone_iff_eq_none.1 absent]
        rfl
      · have rest := congrArg Shape.rest ((Shape.same_iff s .bottom).1 least)
        rw [Shape.forget_bottom, Shape.forget_rest] at rest
        cases hr : s.rest with
        | none => simp [FreeTail, hr]
        | some r =>
            rw [hr, Slot.forget_some] at rest
            have top : r.forget false = .top := Option.some.inj rest
            rw [FreeTail, hr, Option.all_some, ← Ty.isTop_forget false, top]
            rfl

/-- Where further arguments ask nothing, tails match. -/
theorem Shape.tailsMatch_of_freeTail {s t : Shape} (hs : (Signature.shaped s).FreeTail)
    (ht : (Signature.shaped t).FreeTail) : s.TailsMatch t := by
  rw [Signature.FreeTail] at hs ht
  unfold TailsMatch
  cases hx : s.rest <;> cases hy : t.rest <;> simp_all

theorem Signature.aligned_of_freeTail {f g : Signature} (hf : f.All (fun _ => True) FreeTail)
    (hg : g.All (fun _ => True) FreeTail) (bound : Bound) : f.Aligned bound g :=
  Signature.aligned_of_all (fun _ _ => Shape.tailsMatch_of_freeTail) hf hg bound

/-!
### Signatures whose own parts are known
-/

/-- A bound is the unknown type only if an operand is. -/
theorem Ty.unknown_of_combine {bound : Bound} {a b : Ty} (h : Ty.combine bound a b = .ok .unknown) :
    a = .unknown ∨ b = .unknown := by
  cases a with
  | unknown => exact .inl rfl
  | top => cases b <;> cases bound <;> simp_all [Ty.combine, Bound.pick]
  | union p c f =>
      cases b with
      | unknown => exact .inr rfl
      | top => cases bound <;> simp_all [Ty.combine, Bound.pick]
      | union q d g =>
          rw [Ty.combine_union, map_eq_ok] at h
          obtain ⟨callable, -, eq⟩ := h
          simp at eq

/-- A signature that constructs no class and has no part of unknown type, be it a formal, the type
    of further arguments or the result. What is nested deeper may be unknown. -/
structure Signature.Known (f : Signature) : Prop where
  owner : f.owner? = none
  slots : some .unknown ∉ f.slots

/-- A bound of known signatures is known. -/
theorem Signature.Known.of_combine {bound : Bound} {f g u : Signature} (hf : f.Known)
    (hg : g.Known) (h : Signature.combine bound f g = .ok u) : u.Known := by
  rcases Signature.combine_cases h with
    rfl | rfl | ⟨loose, still, -, rfl⟩ | ⟨s, t, v, rfl, rfl, rfl, merged⟩
  · exact hf
  · exact hg
  · exact ⟨rfl, by simp⟩
  · refine ⟨(Shape.plain_of_merge merged).1, fun unknown => ?_⟩
    rcases Shape.supply_of_merge merged unknown with here | here | ⟨dir, a, b, ha, hb, hab⟩
    · exact hf.slots here
    · exact hg.slots here
    · rcases Ty.unknown_of_combine hab with rfl | rfl
      · exact hf.slots ha
      · exact hg.slots hb

/-- A known shape knows its result. -/
theorem Signature.Known.returned {s : Shape} (h : (Signature.shaped s).Known) :
    s.returned.any Ty.isUnknown = false := by
  have owner : s.owner = none := h.owner
  rw [Shape.returned, owner]
  cases result : s.result with
  | none => rfl
  | some r =>
      cases r with
      | unknown => exact absurd (result ▸ s.result_mem_slots) h.slots
      | top => rfl
      | union => rfl

/-- The demand of a known shape that takes no further arguments is the shape, as far as equality can
    tell. -/
theorem Shape.demand_forget {s t : Shape} (hs : (Signature.shaped s).Known)
    (ht : (Signature.shaped t).Known) (rest : t.rest = none) :
    (s.demand t).forget true = t.forget true := by
  have owner : t.owner = none := ht.owner
  have known : ∀ l : List Slot, (∀ x ∈ l, x ∈ t.slots) →
      l.map (Option.map Ty.unknownToBottom) = l := by
    intro l hl
    have same : ∀ x ∈ l, x.map Ty.unknownToBottom = x := by
      intro x hx
      match x with
      | none => rfl
      | some .unknown => exact absurd (hl _ hx) ht.slots
      | some .top => rfl
      | some (.union ..) => rfl
    rw [List.map_congr_left same, List.map_id']
  have required := known t.required fun x hx =>
    Shape.mem_slots.2 (.inl (List.mem_append_left _ hx))
  have optional := known t.optional fun x hx =>
    Shape.mem_slots.2 (.inl (List.mem_append_right _ hx))
  rw [Shape.demand, hs.returned, rest, Shape.returned, owner, Shape.forget_eq, Shape.forget_eq]
  simp [required, optional, rest]

/-!
### Comparing with a bound
-/

/-- What the law asks of the two signatures that are joined. -/
structure Signature.Joinable (f : Signature) : Prop where
  plain : f.Plain
  regular : f.Regular
  known : f.Known

theorem Signature.Joinable.definite {f : Signature} (h : f.Joinable) : f.Definite :=
  h.plain.definite h.regular

theorem Signature.Plain.freeTail {f : Signature} (h : f.Plain) :
    f.All (fun _ => True) Signature.FreeTail :=
  h.imp (fun _ => id) fun _ => Signature.IsPlain.freeTail

/-- What is left of plain signatures is aligned. -/
private theorem aligned_forget {f g : Signature} (hf : f.Plain) (hg : g.Plain) :
    (f.forget true).Aligned .join (g.forget true) :=
  (Signature.aligned_of_freeTail hf.freeTail hg.freeTail .join).forget

/-- A shape stands in for a known one that it leaves as it is in a join, if that one takes further
    arguments only where it does so itself. -/
private theorem isSubtypeOf_of_absorbed {s u : Shape} (hs : (Signature.shaped s).Joinable)
    (hu : (Signature.shaped u).Definite) (known : (Signature.shaped u).Known)
    (rest : s.rest = none → u.rest = none)
    (absorbed : Signature.bound .join ((Signature.shaped s).forget true)
      ((Signature.shaped u).forget true) = (Signature.shaped u).forget true) :
    (Signature.shaped s).isSubtypeOf (.shaped u) = .ok true := by
  rcases hs.plain.own.2.2 with absent | least
  · have fixed : u.rest = none := rest (Option.isNone_iff_eq_none.1 absent)
    have demand : (Signature.shaped (s.demand u)).forget true = (Signature.shaped u).forget true :=
      congrArg Signature.shaped (Shape.demand_forget hs.known known fixed)
    rw [Signature.isSubtypeOf_iff hs.definite hu, demand, absorbed]
  · exact Signature.isSubtypeOf_of_isBottom hu.valid.own least

/-- The upper bound of two shapes is a definite and known shape, and what is left of it is the upper
    bound of what is left of the two. -/
private theorem exists_bound {s t : Shape} (hs : (Signature.shaped s).Joinable)
    (ht : (Signature.shaped t).Joinable) :
    ∃ u, Signature.bound .join (.shaped s) (.shaped t) = .shaped u ∧
      (Signature.shaped u).Definite ∧ (Signature.shaped u).Known ∧
      (Signature.shaped u).forget true = Signature.bound .join
        ((Signature.shaped s).forget true) ((Signature.shaped t).forget true) := by
  have combined := Signature.combine_eq_bound .join hs.definite.valid ht.definite.valid
  obtain ⟨u, eq, -⟩ := Signature.combine_shaped_eq_ok.1 combined
  refine ⟨u, eq, eq ▸ hs.definite.bound .join ht.definite,
    hs.known.of_combine ht.known (eq ▸ combined), ?_⟩
  rw [← eq, Signature.forget_bound .join hs.definite.valid ht.definite.valid]

/-- An upper bound of shapes takes further arguments only if both do. -/
private theorem rest_of_bound {s t u : Shape} (hs : (Signature.shaped s).Joinable)
    (ht : (Signature.shaped t).Joinable)
    (left : (Signature.shaped u).forget true = Signature.bound .join
      ((Signature.shaped s).forget true) ((Signature.shaped t).forget true))
    (absent : s.rest = none ∨ t.rest = none) : u.rest = none := by
  obtain ⟨v, eq, bound⟩ := Shape.exists_pointwise .join hs.definite.exact ht.definite.exact
  have same : u.forget true = v := Signature.shaped.inj (left.trans eq)
  rw [← Slot.forget_eq_none_iff, ← Shape.forget_rest, same, bound.rest, Bound.pick,
    Option.map₂_eq_none_iff]
  simpa using absent

/-- An upper bound is above both operands. -/
private theorem isSubtypeOf_bound {f g : Signature} (hf : f.Joinable) (hg : g.Joinable) :
    f.isSubtypeOf (Signature.bound .join f g) = .ok true ∧
      g.isSubtypeOf (Signature.bound .join f g) = .ok true := by
  match f, g with
  | .top loose, g =>
      have precise : loose = false := hf.plain.own
      rw [precise, Signature.bound_top]
      simp [Bound.pick, Signature.isSubtypeOf]
  | .shaped s, .top loose =>
      have precise : loose = false := hg.plain.own
      have top : Signature.bound .join (.shaped s) (.top loose) = .top false :=
        Signature.bound_eq_of_combine (by simp [Signature.combine, Bound.pick, precise])
      rw [top]
      simp [Signature.isSubtypeOf]
  | .shaped s, .shaped t =>
      obtain ⟨u, eq, definite, known, left⟩ := exists_bound hf hg
      have exact := Signature.exact_bound .join hf.definite.exact hg.definite.exact
      rw [eq]
      constructor
      · refine isSubtypeOf_of_absorbed hf definite known
          (fun absent => rest_of_bound hf hg left (.inl absent)) ?_
        rw [left, Signature.bound_comm .join hf.definite.exact exact,
          Signature.bound_again hf.definite.exact hg.definite.exact]
      · refine isSubtypeOf_of_absorbed hg definite known
          (fun absent => rest_of_bound hf hg left (.inr absent)) ?_
        rw [left, Signature.bound_comm .join hg.definite.exact exact,
          Signature.bound_again_right hf.definite.exact hg.definite.exact]

/-- Whatever is above both operands is above their upper bound. -/
private theorem bound_isSubtypeOf {f g h : Signature} (hf : f.Joinable) (hg : g.Joinable)
    (plain : h.Plain) (regular : h.Regular) (hfh : f.isSubtypeOf h = .ok true)
    (hgh : g.isSubtypeOf h = .ok true) :
    (Signature.bound .join f g).isSubtypeOf h = .ok true := by
  match f, g, h with
  | _, _, .top _ => simp [Signature.isSubtypeOf]
  | .top _, _, .shaped _ => simp [Signature.isSubtypeOf] at hfh
  | .shaped _, .top _, .shaped _ => simp [Signature.isSubtypeOf] at hgh
  | .shaped s, .shaped t, .shaped v =>
      have hh := plain.definite regular
      obtain ⟨u, eq, definite, known, left⟩ := exists_bound hf hg
      -- All three know their results, so they are measured against the same demand.
      have demands : s.demand v = u.demand v :=
        Shape.demand_congr (hf.known.returned.trans known.returned.symm) v
      have demandt : t.demand v = u.demand v :=
        Shape.demand_congr (hg.known.returned.trans known.returned.symm) v
      have own : (Signature.shaped (u.demand v)).FreeTail := rfl
      have free := plain.freeTail.demand trivial (fun _ => trivial) own
      have aligned : ∀ {r : Signature}, r.Plain →
          (r.forget true).Aligned .join ((Signature.shaped (u.demand v)).forget true) := fun hr =>
        (Signature.aligned_of_freeTail hr.freeTail free .join).forget
      rw [Signature.isSubtypeOf_iff hf.definite hh, demands] at hfh
      rw [Signature.isSubtypeOf_iff hg.definite hh, demandt] at hgh
      rw [eq, Signature.isSubtypeOf_iff definite hh, left,
        Signature.bound_assoc hf.definite.exact hg.definite.exact hh.demand.exact
          (aligned_forget hf.plain hg.plain) (aligned hf.plain) (aligned hg.plain), hgh, hfh]

/-!
### Main theorem
-/

/-- Join is the least upper bound for subtyping: of two plain signatures that construct no class and
    whose own parts are known, there is a join, both are subtypes of it, and it is a subtype of
    every plain signature of which both are subtypes. Signatures may be nested to any depth, and
    there they may construct classes and have unknown parts. -/
theorem join_least {f g : Signature} (hf : f.Joinable) (hg : g.Joinable) :
    ∃ j : Signature, Callable.join (some f) (some g) = .ok (some j) ∧
      f.isSubtypeOf j = .ok true ∧ g.isSubtypeOf j = .ok true ∧
      ∀ h : Signature, h.Plain → h.Regular → f.isSubtypeOf h = .ok true →
        g.isSubtypeOf h = .ok true → j.isSubtypeOf h = .ok true := by
  have joined := Callable.combine_eq_bound .join hf.definite.valid hg.definite.valid
  have above := isSubtypeOf_bound hf hg
  exact ⟨_, joined, above.1, above.2,
    fun h plain regular => bound_isSubtypeOf hf hg plain regular⟩

/-- The theorem at two signatures of different arities that take and return functions, and an upper
    bound of both with formals of unknown type. -/
theorem join_least_nested :
    let inner : Signature := .shaped
      { required := [some (.ofPrimitives { number := true })], result := some .unknown }
    let f : Signature := .shaped
      { required := [some (.callableOf inner)], result := some (.callableOf .bottom) }
    let g : Signature := .shaped
      { optional := [some (.callableOf (.top false))], result := some (.callableOf inner),
        captures := [("x", none)] }
    let h : Signature := .shaped
      { required := [some .unknown], optional := [some .unknown], result := some .top }
    ∃ j : Signature, Callable.join (some f) (some g) = .ok (some j) ∧
      f.isSubtypeOf j = .ok true ∧ g.isSubtypeOf j = .ok true ∧ j.isSubtypeOf h = .ok true := by
  intro inner f g h
  have hf : f.Joinable := ⟨by decide, by decide, rfl, by simp [f, Shape.slots, Ty.callableOf]⟩
  have hg : g.Joinable := ⟨by decide, by decide, rfl, by simp [g, Shape.slots, Ty.callableOf]⟩
  have hfh : f.isSubtypeOf h = .ok true := by decide +kernel
  have hgh : g.isSubtypeOf h = .ok true := by decide +kernel
  obtain ⟨j, joined, left, right, least⟩ := join_least hf hg
  exact ⟨j, joined, left, right, least h (by decide) (by decide) hfh hgh⟩

end SignatureLattice
