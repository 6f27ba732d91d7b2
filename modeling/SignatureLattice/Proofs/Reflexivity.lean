/-
Module: SignatureLattice.Proofs.Reflexivity
Purpose: Which signatures are subtypes of themselves. A signature is measured against a demand made
  of its own parts, so that all comes down to whether each part gives way to what it is turned into.
  An unknown formal is turned into the type of no value, to which it gives way where formals are met
  but not where they are joined. The result of a constructor is turned into the instances of its
  class, to which the declared result need not give way.
Main exports: Shape.FitsItself, isSubtypeOf_self_iff
-/
import SignatureLattice.Proofs.Fitting

namespace SignatureLattice

/-!
### Parts of a signature and of its demand
-/

/-- Met with what a demand makes of it, a type gives way, be it unknown or not. -/
theorem Ty.givesWay_unknownToBottom {a : Ty} (ha : a.Regular) :
    a.GivesWay .meet a.unknownToBottom := by
  by_cases unknown : a = .unknown
  · subst unknown
    refine ⟨.bottom, ?_, rfl⟩
    simp [Ty.unknownToBottom, Ty.isUnknown, Ty.bottom, Ty.combine, Bound.pick]
  · rw [Ty.unknownToBottom_of_ne unknown]
    exact Ty.givesWay_of_same ha (Ty.same_refl a) .meet

/-- Joined with it, a type gives way only if it is known. -/
theorem Ty.givesWay_unknownToBottom_iff {a : Ty} (ha : a.Regular) :
    a.GivesWay .join a.unknownToBottom ↔ a ≠ .unknown := by
  by_cases unknown : a = .unknown
  · subst unknown
    refine iff_of_false ?_ (· rfl)
    rintro ⟨z, hz, equal⟩
    obtain rfl : Ty.unknown = z := by
      simpa [Ty.unknownToBottom, Ty.isUnknown, Ty.bottom, Ty.combine, Bound.pick] using hz
    exact Bool.noConfusion equal
  · rw [Ty.unknownToBottom_of_ne unknown]
    exact iff_of_true (Ty.givesWay_of_same ha (Ty.same_refl a) .join) unknown

/-- A canonical class set adds nothing to a single class if it is empty or has just that class. -/
theorem ClassSet.union_singleton_eq {classes : ClassSet} {c : NamedClass}
    (canonical : classes.Canonical) : classes.union [c] = [c] ↔ classes = [] ∨ classes = [c] := by
  constructor
  · intro h
    have only : ∀ d ∈ classes, d = c := fun d hd =>
      List.mem_singleton.1 (h ▸ ClassSet.mem_union.2 (.inl hd))
    cases classes with
    | nil => exact .inl rfl
    | cons d rest =>
        obtain rfl := only d (List.mem_cons_self ..)
        refine .inr (ClassSet.ext_of_canonical canonical (ClassSet.canonical_singleton d) ?_)
        exact fun e => ⟨fun he => List.mem_singleton.2 (only e he),
          fun he => List.mem_singleton.1 he ▸ List.mem_cons_self ..⟩
  · rintro (rfl | rfl)
    · rfl
    · exact ClassSet.pick_self .join canonical

/-- In a join, only the type of no value and the instances of a class themselves give way to these
    instances. -/
theorem Ty.givesWay_instanceOf_iff {a : Ty} (ha : a.Regular) (c : NamedClass) :
    a.GivesWay .join (.instanceOf c) ↔ a = .bottom ∨ a = .instanceOf c := by
  cases a with
  | top =>
      refine iff_of_false ?_ (by simp [Ty.bottom, Ty.instanceOf])
      rintro ⟨z, hz, equal⟩
      obtain rfl : Ty.top = z := by simpa [Ty.combine, Bound.pick] using hz
      exact Bool.noConfusion equal
  | unknown =>
      refine iff_of_false ?_ (by simp [Ty.bottom, Ty.instanceOf])
      rintro ⟨z, hz, equal⟩
      obtain rfl : Ty.unknown = z := by simpa [Ty.instanceOf, Ty.combine, Bound.pick] using hz
      exact Bool.noConfusion equal
  | union p classes f =>
      have joined : Ty.combine .join (.union p classes f) (.instanceOf c) =
          .ok (.union p (classes.union [c]) f) := by
        rw [Ty.instanceOf, Ty.combine_union]
        cases f <;> simp [Callable.combine, Bound.pick, Primitives.union]
      have absent : Callable.same f none = true ↔ f = none := by cases f <;> simp [Callable.same]
      rw [Ty.GivesWay, joined]
      simp only [Except.ok.injEq, exists_eq_left', Ty.instanceOf, Ty.bottom, Ty.same,
        Bool.and_eq_true, beq_iff_eq, absent, Ty.union.injEq,
        ClassSet.union_singleton_eq (Ty.all_union.1 ha).1]
      tauto

namespace Shape

/-- The formals of a shape up to its reach are its required and optional formals and its type of
    further arguments. -/
theorem mem_formals_iff {s : Shape} {a : Ty} :
    some a ∈ s.required ++ s.optional ++ [s.rest] ↔
      ∃ i, i < s.reach ∧ s.formalAt? i = some a := by
  rw [List.mem_append, List.mem_singleton]
  constructor
  · rintro (h | h)
    · obtain ⟨i, hi, eq⟩ := List.getElem_of_mem h
      have inside : i < s.span := by simpa [span] using hi
      refine ⟨i, Nat.lt_of_lt_of_le inside (Nat.le_add_right _ _), ?_⟩
      rw [formalAt?, List.getD_eq_getElem _ _ hi, eq]
    · refine ⟨s.span, ?_, (formalAt?_of_le (Nat.le_refl _)).trans h.symm⟩
      rw [reach, ← h]
      exact Nat.lt_succ_self _
  · rintro ⟨i, -, eq⟩
    by_cases inside : i < (s.required ++ s.optional).length
    · rw [formalAt?, List.getD_eq_getElem _ _ inside] at eq
      exact .inl (eq ▸ List.getElem_mem inside)
    · rw [formalAt?, List.getD_eq_default _ _ (Nat.le_of_not_lt inside)] at eq
      exact .inr eq.symm

/-- What a shape has to meet to be a subtype of itself: a loose one knows all its formals, and one
    that constructs a class declares that it returns nothing but instances of the class. -/
structure FitsItself (s : Shape) : Prop where
  known : s.loose = true → some .unknown ∉ s.required ++ s.optional ++ [s.rest]
  result : ∀ c, s.owner = some c → s.result = some .bottom ∨ s.result = some (.instanceOf c)

theorem fitsItself_of_isBottom {s : Shape} (least : s.isBottom = true) : s.FitsItself := by
  obtain ⟨required, optional, rest, result⟩ := isBottom_iff_parts.1 least
  exact ⟨by simp [required, optional, rest], fun _ _ => .inl result⟩

/-- In its own formals a shape gives way to its demand unless they are joined and one of them is
    unknown. -/
theorem fits_formals_iff {s : Shape} (regular : (Signature.shaped s).Regular) :
    (∀ i, i < (s.demand s).span → Slot.GivesWay (MergeRule.of .join s s).formals (s.formalAt? i)
        ((s.demand s).formalAt? i)) ↔
      (s.loose = true → some .unknown ∉ s.required ++ s.optional ++ [s.rest]) := by
  have position : ∀ bound i, i < s.reach →
      (Slot.GivesWay bound (s.formalAt? i) ((s.demand s).formalAt? i) ↔
        ∀ a, s.formalAt? i = some a → a.GivesWay bound a.unknownToBottom) := by
    intro bound i hi
    rw [demand_formalAt? s hi]
    constructor
    · exact fun h a ha => h a _ ha (by rw [ha]; rfl)
    · intro h a b ha hb
      obtain rfl : a.unknownToBottom = b := by simpa [ha] using hb
      exact h a ha
  have regularAt : ∀ {i a}, s.formalAt? i = some a → a.Regular := fun ha =>
    regular.slot (ha ▸ s.formalAt?_mem_slots _)
  rw [demand_span]
  cases loose : s.loose with
  | false =>
      rw [MergeRule.of_precise .join loose loose]
      refine iff_of_true (fun i hi => ?_) (by simp)
      exact (position .meet i hi).2 fun a ha => Ty.givesWay_unknownToBottom (regularAt ha)
  | true =>
      have rule : MergeRule.of .join s s = .loose := by simp [MergeRule.of, loose]
      rw [rule, MergeRule.formals, mem_formals_iff]
      constructor
      · rintro gives - ⟨i, hi, unknown⟩
        exact (Ty.givesWay_unknownToBottom_iff (regularAt unknown)).1
          ((position .join i hi).1 (gives i hi) _ unknown) rfl
      · intro known i hi
        refine (position .join i hi).2 fun a ha => ?_
        refine (Ty.givesWay_unknownToBottom_iff (regularAt ha)).2 ?_
        rintro rfl
        exact known rfl ⟨i, hi, ha⟩

/-- In its result a shape gives way to its demand if it constructs no class or returns nothing but
    instances of the class. -/
theorem fits_result_iff {s : Shape} (regular : (Signature.shaped s).Regular)
    (valid : s.validate = .ok ()) :
    Slot.GivesWay .join s.result (s.demand s).result ↔
      ∀ c, s.owner = some c → s.result = some .bottom ∨ s.result = some (.instanceOf c) := by
  obtain ⟨a, ha⟩ := exists_result valid
  have regularResult : a.Regular := regular.slot (ha ▸ s.result_mem_slots)
  cases owner : s.owner with
  | none =>
      have demand : (s.demand s).result = some a := by
        simp only [demand, returned, owner, ha]
        cases a <;> rfl
      rw [demand, ha]
      refine iff_of_true ?_ (by simp)
      rintro _ _ ⟨⟩ ⟨⟩
      exact Ty.givesWay_of_same regularResult (Ty.same_refl a) .join
  | some c =>
      have demand : (s.demand s).result = some (.instanceOf c) := by
        simp only [demand, returned, owner]
        rfl
      rw [demand, ha]
      simp only [Option.some.injEq, forall_eq']
      rw [← Ty.givesWay_instanceOf_iff regularResult c]
      exact ⟨fun h => h _ _ rfl rfl, by rintro h _ _ ⟨⟩ ⟨⟩; exact h⟩

end Shape

/-!
### Main theorem
-/

/-- A deeply valid and regular signature is a subtype of itself just when it is a top sentinel or a
    shape that fits itself. -/
theorem isSubtypeOf_self_iff {f : Signature} (valid : f.DeeplyValid) (regular : f.Regular) :
    f.isSubtypeOf f = .ok true ↔ ∀ s, f = .shaped s → s.FitsItself := by
  cases f with
  | top loose => simp [Signature.isSubtypeOf]
  | shaped s =>
      simp only [Signature.shaped.injEq, forall_eq']
      rw [Signature.isSubtypeOf_iff_fits valid regular valid]
      constructor
      · rintro (least | fits)
        · exact Shape.fitsItself_of_isBottom least
        · exact ⟨(Shape.fits_formals_iff regular).1 fits.formals,
            (Shape.fits_result_iff regular valid.own).1 fits.result⟩
      · intro own
        refine .inr ⟨?_, ?_, (Shape.fits_formals_iff regular).2 own.known,
          (Shape.fits_result_iff regular valid.own).2 own.result⟩
        · rw [Shape.demand, List.length_map]
          exact (MergeRule.of .join s s).requiredCount_self _
        · rw [Shape.demand_span]
          exact Nat.le_add_right _ _

/-- The theorem at a loose variadic constructor that takes functions with unknown formals, and
    returns what it constructs. -/
theorem isSubtypeOf_self_variadic :
    let inner : Signature := .shaped { required := [some .unknown], result := some .unknown }
    let f : Signature := .shaped
      { required := [some (.callableOf inner)], rest := some .top,
        result := some (.instanceOf ⟨"Foo", 0⟩), owner := some ⟨"Foo", 0⟩, loose := true }
    f.isSubtypeOf f = .ok true := by
  intro inner f
  refine (isSubtypeOf_self_iff (f := f) (by decide) (by decide)).2 ?_
  intro s hs
  obtain rfl := Signature.shaped.inj hs
  exact ⟨by simp [inner, Ty.callableOf], by simp⟩

/-- Two signatures that are no subtypes of themselves: a constructor that is declared to return
    nothing, and a loose signature with an unknown formal. -/
theorem isSubtypeOf_self_fails :
    let constructor : Signature := .shaped
      { result := some (.ofPrimitives { undefined := true }), owner := some ⟨"Foo", 0⟩ }
    let observed : Signature := .shaped
      { required := [some .unknown], result := some (.ofPrimitives { number := true }),
        loose := true }
    constructor.DeeplyValid ∧ constructor.Regular ∧ observed.DeeplyValid ∧ observed.Regular ∧
      constructor.isSubtypeOf constructor = .ok false ∧
      observed.isSubtypeOf observed = .ok false := by
  intro constructor observed
  have deep : constructor.DeeplyValid ∧ observed.DeeplyValid := ⟨by decide, by decide⟩
  have regular : constructor.Regular ∧ observed.Regular := ⟨by decide, by decide⟩
  have first : constructor.isSubtypeOf constructor = .ok false := by decide +kernel
  have second : observed.isSubtypeOf observed = .ok false := by decide +kernel
  exact ⟨deep.1, regular.1, deep.2, regular.2, first, second⟩

end SignatureLattice
