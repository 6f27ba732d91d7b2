/-
Module: SignatureLattice.Proofs.Finiteness
Purpose: The algebra does not grow without bound. The values of the expressions over finitely many
  signatures and types have no greater extent than these, and there are only finitely many trees of
  an extent that equality can tell apart. So the expressions have only finitely many values that
  differ.
Main exports: Ty.outlines, Signature.outlines, Ty.finite_outlines, Signature.finite_outlines,
  Stock.signatureValues, Stock.typeValues, values_bounded
-/
import Mathlib.Data.Set.Finite.List
import Mathlib.Data.Set.Finite.Range
import SignatureLattice.Proofs.DataTypes
import SignatureLattice.Proofs.Extent

namespace SignatureLattice

/-!
### Finitely many labels
-/

/-- There are finitely many lists of bounded length over a finite set. -/
private theorem finite_lists {α : Type} {s : Set α} (finite : s.Finite) (n : Nat) :
    {l : List α | l.length ≤ n ∧ ∀ x ∈ l, x ∈ s}.Finite := by
  have : Finite s := finite.to_subtype
  apply ((List.finite_length_le s n).image (List.map Subtype.val)).subset
  rintro l ⟨length, members⟩
  refine ⟨l.attachWith (· ∈ s) members, by simpa using length, ?_⟩
  exact List.attachWith_map_subtype_val members

instance : Finite Primitives := by
  apply Finite.of_injective fun p : Primitives =>
    (p.null, p.undefined, p.boolean, p.number, p.string)
  rintro ⟨⟩ ⟨⟩ h
  simpa using h

theorem ClassSet.finite_canonical (classes : List NamedClass) :
    {c : ClassSet | c.Canonical ∧ c ⊆ classes}.Finite := by
  apply Set.Finite.of_finite_image (f := List.toFinset)
  · apply (classes.toFinset.powerset.finite_toSet).subset
    rintro _ ⟨c, ⟨-, sub⟩, rfl⟩
    have inside : c.toFinset ⊆ classes.toFinset := fun x hx =>
      List.mem_toFinset.2 (sub (List.mem_toFinset.1 hx))
    exact Finset.mem_coe.2 (Finset.mem_powerset.2 inside)
  -- Without the canonical order, repetitions would make infinitely many lists of the same classes.
  · rintro c ⟨hc, -⟩ d ⟨hd, -⟩ h
    exact (ClassSet.toFinset_inj hc hd).1 h

/-!
### Finitely many trees

Equality looks at a tree through its outline, which is what is left of the tree when the constructed
classes, the captured variables and looseness are forgotten.
-/

section

variable (span : Nat) (classes : List NamedClass)

/-- The outlines of the regular types that are bounded in depth, in the formals of their signatures
    and in their classes. -/
def Ty.outlines (depth : Nat) : Set Ty :=
  Ty.forget false ''
    {t | t.Regular ∧ t.depth ≤ depth ∧ t.All (fun c => c ⊆ classes) fun g => g.span ≤ span}

/-- The outlines of the regular signatures that are bounded in depth, in their formals and in their
    classes. -/
def Signature.outlines (depth : Nat) : Set Signature :=
  Signature.forget false ''
    {f | f.Regular ∧ f.depth ≤ depth ∧ f.All (fun c => c ⊆ classes) fun g => g.span ≤ span}

variable {span classes} {depth : Nat}

private def Signature.ofSlots (p : List Slot × List Slot × Slot × Slot) : Signature :=
  .shaped { required := p.1, optional := p.2.1, rest := p.2.2.1, result := p.2.2.2 }

/-- The outline of a signature is made of the outlines of the types in its slots. -/
private theorem Signature.finite_outlines_of (types : (Ty.outlines span classes depth).Finite) :
    (Signature.outlines span classes (depth + 1)).Finite := by
  have slots := (types.image some).insert (none : Slot)
  have lists := finite_lists slots span
  have shapes := (lists.prod (lists.prod (slots.prod slots))).image Signature.ofSlots
  apply (shapes.insert (.top false)).subset
  rintro _ ⟨f, ⟨regular, bounded, all⟩, rfl⟩
  have slot : ∀ x ∈ f.slots,
      Slot.forget false x ∈ insert (none : Slot) (some '' Ty.outlines span classes depth) := by
    intro x hx
    cases x with
    | none => exact Set.mem_insert _ _
    | some t =>
        have inside := Signature.depth_le_succ.1 bounded t hx
        exact Set.mem_insert_of_mem _ ⟨_, ⟨t, ⟨regular.slot hx, inside, all.slot hx⟩, rfl⟩, rfl⟩
  cases f with
  | top loose => exact Set.mem_insert _ _
  | shaped s =>
      have own : s.required.length + s.optional.length ≤ span := all.own
      have formal : ∀ x ∈ s.required ++ s.optional, x ∈ s.slots := fun _ hx =>
        Shape.mem_slots.2 (.inl hx)
      have list : ∀ l : List Slot, l.length ≤ span → (∀ x ∈ l, x ∈ s.required ++ s.optional) →
          l.map (Slot.forget false) ∈ {l : List Slot | l.length ≤ span ∧
            ∀ x ∈ l, x ∈ insert (none : Slot) (some '' Ty.outlines span classes depth)} := by
        intro l length sub
        refine ⟨by simpa using length, fun y hy => ?_⟩
        obtain ⟨x, hx, rfl⟩ := List.mem_map.1 hy
        exact slot x (formal x (sub x hx))
      have required := list s.required (by omega) fun _ => List.mem_append_left _
      have optional := list s.optional (by omega) fun _ => List.mem_append_right _
      have rest := slot s.rest s.rest_mem_slots
      have result := slot s.result s.result_mem_slots
      rw [Signature.forget_shaped, Shape.forget_eq]
      exact Set.mem_insert_of_mem _ ⟨(_, _, _, _), ⟨required, optional, rest, result⟩, rfl⟩

private def Ty.ofParts (p : Primitives × ClassSet × Callable) : Ty :=
  .union p.1 p.2.1 p.2.2

/-- The outline of a union is made of its primitives, its classes and the outline of its callable
    part. -/
private theorem Ty.finite_outlines_of
    (signatures : (Signature.outlines span classes depth).Finite) :
    (Ty.outlines span classes depth).Finite := by
  have callables := (signatures.image some).insert (none : Callable)
  have primitives : (Set.univ : Set Primitives).Finite := Set.finite_univ
  have unions := (primitives.prod ((ClassSet.finite_canonical classes).prod callables)).image
    Ty.ofParts
  apply ((unions.insert .unknown).insert .top).subset
  rintro _ ⟨t, ⟨regular, bounded, all⟩, rfl⟩
  cases t with
  | top => exact Set.mem_insert _ _
  | unknown => exact Set.mem_insert_of_mem _ (Set.mem_insert _ _)
  | union p c callable =>
      obtain ⟨canonical, regular⟩ := Ty.all_union.1 regular
      obtain ⟨inside, all⟩ := Ty.all_union.1 all
      have part : callable.map (Signature.forget false) ∈
          insert (none : Callable) (some '' Signature.outlines span classes depth) := by
        cases callable with
        | none => exact Set.mem_insert _ _
        | some f =>
            have bounded := Ty.depth_union_le.1 bounded f rfl
            exact Set.mem_insert_of_mem _
              ⟨_, ⟨f, ⟨regular f rfl, bounded, all f rfl⟩, rfl⟩, rfl⟩
      rw [Ty.forget_union]
      apply Set.mem_insert_of_mem
      apply Set.mem_insert_of_mem
      exact ⟨(p, c, _), ⟨Set.mem_univ p, ⟨canonical, inside⟩, part⟩, rfl⟩

/-- There are finitely many outlines of signatures of bounded extent. -/
theorem Signature.finite_outlines (depth : Nat) :
    (Signature.outlines span classes depth).Finite := by
  induction depth with
  | zero =>
      -- A signature is a callable itself, so none has depth zero.
      apply Set.finite_empty.subset
      rintro _ ⟨f, ⟨-, bounded, -⟩, rfl⟩
      exact absurd f.depth_pos (Nat.not_lt.2 bounded)
  | succ depth ih => exact Signature.finite_outlines_of (Ty.finite_outlines_of ih)

/-- There are finitely many outlines of types of bounded extent. -/
theorem Ty.finite_outlines (depth : Nat) : (Ty.outlines span classes depth).Finite :=
  Ty.finite_outlines_of (Signature.finite_outlines depth)

end

/-!
### The values of expressions
-/

namespace Stock

/-- The values of the expressions over the signatures of a stock. -/
def signatureValues (stock : Stock) : Set Signature :=
  {u | ∃ e : SignatureTerm, e.DrawnFrom stock ∧ e.eval = .ok u}

/-- The values of the expressions over the types and the signatures of a stock. -/
def typeValues (stock : Stock) : Set Ty :=
  {z | ∃ x : TypeTerm, x.DrawnFrom stock ∧ x.eval = .ok z}

variable {stock : Stock}

theorem regular_signatureValue (sound : stock.Sound) {u : Signature}
    (hu : u ∈ stock.signatureValues) : u.Regular := by
  obtain ⟨e, drawn, h⟩ := hu
  apply SignatureTerm.eval_keeps (fun f hf => (sound.signature f hf).2) _ drawn h
  exact fun hf hg combined => Signature.all_of_combine .regularity hf hg combined

theorem regular_typeValue (sound : stock.Sound) {z : Ty} (hz : z ∈ stock.typeValues) :
    z.Regular := by
  obtain ⟨x, drawn, h⟩ := hz
  apply TypeTerm.eval_keeps (fun t ht => (sound.type t ht).2) _ _ drawn h
  · intro e drawn f hf
    exact (Ty.all_callableOf ClassSet.canonical_nil).2 (regular_signatureValue sound ⟨e, drawn, hf⟩)
  · exact fun ha hb combined => Ty.all_of_combine .regularity ha hb combined

theorem finite_signatureValues (sound : stock.Sound) :
    (Signature.forget false '' stock.signatureValues).Finite := by
  have finite : (Signature.outlines stock.span stock.classes stock.depth).Finite :=
    Signature.finite_outlines stock.depth
  apply finite.subset
  rintro _ ⟨u, hu, rfl⟩
  have regular := regular_signatureValue sound hu
  obtain ⟨e, drawn, h⟩ := hu
  have bounded := SignatureTerm.boundedBy_of_eval drawn h
  exact ⟨u, ⟨regular, bounded.depth, bounded.inside⟩, rfl⟩

theorem finite_typeValues (sound : stock.Sound) :
    (Ty.forget false '' stock.typeValues).Finite := by
  have finite : (Ty.outlines stock.span stock.classes stock.depth).Finite :=
    Ty.finite_outlines stock.depth
  apply finite.subset
  rintro _ ⟨z, hz, rfl⟩
  have regular := regular_typeValue sound hz
  obtain ⟨x, drawn, h⟩ := hz
  have bounded := TypeTerm.boundedBy_of_eval drawn h
  exact ⟨z, ⟨regular, bounded.depth, bounded.inside⟩, rfl⟩

end Stock

/-- A set of which a view has finitely many images is represented by finitely many of its
    members. -/
private theorem exists_representatives {α : Type} {view : α → α} {s : Set α}
    (finite : (view '' s).Finite) :
    ∃ r ⊆ s, r.Finite ∧ ∀ a ∈ s, ∃ b ∈ r, view a = view b := by
  obtain ⟨r, sub, hr, eq⟩ := finite.exists_subset_finite_image_eq (Set.Subset.refl _)
  refine ⟨r, sub, hr, fun a ha => ?_⟩
  have seen : view a ∈ view '' r := eq ▸ Set.mem_image_of_mem view ha
  obtain ⟨b, hb, eq⟩ := seen
  exact ⟨b, hb, eq.symm⟩

/-- The algebra does not grow without bound: every expression over a sound stock has a value, this
    is no deeper than the stock, nowhere has a signature with more formals than those of the stock,
    and has only classes of the stock; and finitely many of the values represent all of them up to
    equality. -/
theorem values_bounded {stock : Stock} (sound : stock.Sound) :
    (∀ e : SignatureTerm, e.DrawnFrom stock → ∃ u, e.eval = .ok u ∧ u.BoundedBy stock) ∧
      (∀ x : TypeTerm, x.DrawnFrom stock → ∃ z, x.eval = .ok z ∧ z.BoundedBy stock) ∧
      (∃ r ⊆ stock.signatureValues, r.Finite ∧
        ∀ u ∈ stock.signatureValues, ∃ v ∈ r, u.same v = true) ∧
      ∃ r ⊆ stock.typeValues, r.Finite ∧ ∀ z ∈ stock.typeValues, ∃ y ∈ r, z.same y = true := by
  refine ⟨fun e drawn => ?_, fun x drawn => ?_, ?_, ?_⟩
  · obtain ⟨u, hu, -⟩ := e.eval_total (drawn.deeplyValid sound)
    exact ⟨u, hu, SignatureTerm.boundedBy_of_eval drawn hu⟩
  · obtain ⟨z, hz, -⟩ := x.eval_total (drawn.deeplyValid sound)
    exact ⟨z, hz, TypeTerm.boundedBy_of_eval drawn hz⟩
  · obtain ⟨r, sub, finite, represents⟩ :=
      exists_representatives (Stock.finite_signatureValues sound)
    refine ⟨r, sub, finite, fun u hu => ?_⟩
    obtain ⟨v, hv, eq⟩ := represents u hu
    exact ⟨v, hv, (Signature.same_iff u v).2 eq⟩
  · obtain ⟨r, sub, finite, represents⟩ :=
      exists_representatives (Stock.finite_typeValues sound)
    refine ⟨r, sub, finite, fun z hz => ?_⟩
    obtain ⟨y, hy, eq⟩ := represents z hz
    exact ⟨y, hy, (Ty.same_iff z y).2 eq⟩

/-- The theorem at a stock of a variadic function of functions, a loose constructor and two
    types. -/
theorem values_bounded_nested :
    let foo : NamedClass := ⟨"Foo", 0⟩
    let inner : Signature := .shaped { required := [some .top], result := some (.instanceOf foo) }
    let f : Signature := .shaped
      { required := [some (.callableOf inner)], optional := [some .unknown],
        rest := some (.callableOf .bottom), result := some .top }
    let g : Signature := .shaped
      { required := [], result := some (.callableOf inner), owner := some foo, loose := true }
    let stock : Stock := { signatures := [f, g], types := [.callableOf f, .instanceOf foo] }
    (∃ z, (TypeTerm.combine .meet (.given (.callableOf f))
        (.functions (.specialize (.given g) (.given f)))).eval = .ok z ∧ z.BoundedBy stock) ∧
      ∃ r ⊆ stock.typeValues, r.Finite ∧ ∀ z ∈ stock.typeValues, ∃ y ∈ r, z.same y = true := by
  intro foo inner f g stock
  have sound : stock.Sound := ⟨by decide, by decide⟩
  have bounded := values_bounded sound
  have drawn : TypeTerm.DrawnFrom stock (.combine .meet (.given (.callableOf f))
      (.functions (.specialize (.given g) (.given f)))) :=
    ⟨.head _, .tail _ (.head _), .head _⟩
  exact ⟨bounded.2.1 _ drawn, bounded.2.2.2⟩

end SignatureLattice
