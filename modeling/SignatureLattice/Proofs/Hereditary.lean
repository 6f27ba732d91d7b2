/-
Module: SignatureLattice.Proofs.Hereditary
Purpose: Induction over what is nested in a type, and properties that a type has when all that is
  nested in it has them. The parts of a signature sit in its slots, so both go from the slots to the
  signature and from the callable part to the type.
Main exports: Shape.slots, Signature.slots, Shape.formals, Signature.formals, Ty.nested_induction,
  Ty.All, Signature.All, Ty.all_union, Signature.all_iff
-/
import SignatureLattice.Nesting

namespace SignatureLattice

/-- The slots of a shape: its formals, the type of further arguments and the result. -/
def Shape.slots (s : Shape) : List Slot :=
  s.required ++ s.optional ++ [s.rest, s.result]

/-- The slots of a signature. The top sentinels have none. -/
def Signature.slots : Signature → List Slot
  | .top _ => []
  | .shaped s => s.slots

/-- The formals of a shape: required and optional ones and the type of further arguments. -/
def Shape.formals (s : Shape) : List Slot :=
  s.required ++ s.optional ++ [s.rest]

/-- The formals of a signature. The top sentinels have none. -/
def Signature.formals : Signature → List Slot
  | .top _ => []
  | .shaped s => s.formals

@[simp] theorem Signature.slots_shaped (s : Shape) : (Signature.shaped s).slots = s.slots := rfl

@[simp] theorem Signature.slots_top (loose : Bool) : (Signature.top loose).slots = [] := rfl

theorem Shape.mem_slots {s : Shape} {x : Slot} :
    x ∈ s.slots ↔ x ∈ s.required ++ s.optional ∨ x = s.rest ∨ x = s.result := by
  simp only [Shape.slots, List.mem_append, List.mem_cons, List.not_mem_nil, or_false]

theorem Shape.rest_mem_slots (s : Shape) : s.rest ∈ s.slots :=
  Shape.mem_slots.2 (.inr (.inl rfl))

theorem Shape.result_mem_slots (s : Shape) : s.result ∈ s.slots :=
  Shape.mem_slots.2 (.inr (.inr rfl))

/-- What is demanded at a position is one of the formals. -/
theorem Shape.formalAt?_mem_formals (s : Shape) (i : Nat) : s.formalAt? i ∈ s.formals := by
  rw [Shape.formalAt?, List.getD_eq_getElem?_getD]
  cases h : (s.required ++ s.optional)[i]? with
  | none => exact List.mem_append_right _ (List.mem_singleton_self _)
  | some x => exact List.mem_append_left _ (List.mem_of_getElem? h)

/-- What is demanded at a position stands in a slot. -/
theorem Shape.formalAt?_mem_slots (s : Shape) (i : Nat) : s.formalAt? i ∈ s.slots := by
  rcases List.mem_append.1 (s.formalAt?_mem_formals i) with own | rest
  · exact Shape.mem_slots.2 (.inl own)
  · exact Shape.mem_slots.2 (.inr (.inl (List.mem_singleton.1 rest)))

/-!
### Induction

A type in a slot is smaller than the signature that has the slot.
-/

theorem Signature.sizeOf_slot_lt {f : Signature} {t : Ty} (h : some t ∈ f.slots) :
    sizeOf t < sizeOf f := by
  cases f with
  | top loose => simp at h
  | shaped s =>
      obtain ⟨required, optional, rest, result, owner, captures, loose⟩ := s
      simp only [Signature.slots_shaped, Shape.mem_slots, List.mem_append] at h
      simp only [Signature.shaped.sizeOf_spec, Shape.mk.sizeOf_spec]
      rcases h with (h | h) | h | h
      · have := List.sizeOf_lt_of_mem h
        simp only [Option.some.sizeOf_spec] at this; omega
      · have := List.sizeOf_lt_of_mem h
        simp only [Option.some.sizeOf_spec] at this; omega
      · subst h; simp only [Option.some.sizeOf_spec]; omega
      · subst h; simp only [Option.some.sizeOf_spec]; omega

/-- What passes from the slots of a type's callable part to the type holds of every type. -/
theorem Ty.nested_induction {P : Ty → Prop} (top : P .top) (unknown : P .unknown)
    (union : ∀ (p : Primitives) (c : ClassSet) (callable : Callable),
      (∀ f, callable = some f → ∀ t, some t ∈ f.slots → P t) → P (.union p c callable)) :
    ∀ t, P t
  | .top => top
  | .unknown => unknown
  | .union p c none => union p c none fun _ h => by simp at h
  | .union p c (some f) => union p c (some f) fun g hg t ht =>
      have : sizeOf t < sizeOf f := by cases hg; exact Signature.sizeOf_slot_lt ht
      Ty.nested_induction top unknown union t
termination_by t => sizeOf t

/-!
### Hereditary properties
-/

/-- The signatures nested in a type. -/
def Ty.nested (t : Ty) : List Signature :=
  t.parts.filterMap Ty.callable?

/-- Every class set at any depth of the type satisfies `C`, and every signature nested in it
    satisfies `Q`. -/
def Ty.All (C : ClassSet → Prop) (Q : Signature → Prop) (t : Ty) : Prop :=
  (∀ u ∈ t.parts, C u.classes) ∧ ∀ g ∈ t.nested, Q g

/-- Every class set at any depth of the signature satisfies `C`, and the signature satisfies `Q`
    with all signatures nested in it. -/
def Signature.All (C : ClassSet → Prop) (Q : Signature → Prop) (f : Signature) : Prop :=
  (∀ u ∈ f.parts, C u.classes) ∧ ∀ g ∈ f.nested, Q g

section

variable {C : ClassSet → Prop} {Q : Signature → Prop}

instance [DecidablePred C] [DecidablePred Q] (t : Ty) : Decidable (t.All C Q) :=
  inferInstanceAs (Decidable (_ ∧ _))

instance [DecidablePred C] [DecidablePred Q] (f : Signature) : Decidable (f.All C Q) :=
  inferInstanceAs (Decidable (_ ∧ _))

theorem Ty.all_top (nil : C []) : Ty.top.All C Q := by
  simpa [Ty.All, Ty.nested, Ty.parts, Ty.callable?, Ty.classes] using nil

theorem Ty.all_unknown (nil : C []) : Ty.unknown.All C Q := by
  simpa [Ty.All, Ty.nested, Ty.parts, Ty.callable?, Ty.classes] using nil

/-- A union has a hereditary property when its own classes and its callable part have it. -/
theorem Ty.all_union {p : Primitives} {c : ClassSet} {callable : Callable} :
    (Ty.union p c callable).All C Q ↔ C c ∧ ∀ f, callable = some f → f.All C Q := by
  cases callable with
  | none => simp [Ty.All, Ty.nested, Ty.parts, Callable.parts, Ty.callable?, Ty.classes]
  | some f =>
      simp only [Ty.All, Ty.nested, Ty.parts, Callable.parts, Signature.All, Signature.nested,
        List.filterMap_cons, Ty.callable?, List.forall_mem_cons, Ty.classes, Option.some.injEq,
        forall_eq']
      exact and_assoc

theorem Signature.mem_parts {f : Signature} {u : Ty} :
    u ∈ f.parts ↔ ∃ t, some t ∈ f.slots ∧ u ∈ t.parts := by
  cases f with
  | top loose => simp [Signature.parts]
  | shaped s =>
      have slot : ∀ x : Slot, u ∈ Slot.parts x ↔ ∃ t, x = some t ∧ u ∈ t.parts := by
        intro x; cases x <;> simp [Slot.parts]
      simp only [Signature.parts, Shape.mem_parts, slot, Signature.slots_shaped, Shape.mem_slots]
      constructor
      · rintro (⟨x, hx, t, rfl, hu⟩ | ⟨t, ht, hu⟩ | ⟨t, ht, hu⟩)
        · exact ⟨t, .inl hx, hu⟩
        · exact ⟨t, .inr (.inl ht.symm), hu⟩
        · exact ⟨t, .inr (.inr ht.symm), hu⟩
      · rintro ⟨t, ht | ht | ht, hu⟩
        · exact .inl ⟨_, ht, t, rfl, hu⟩
        · exact .inr (.inl ⟨t, ht.symm, hu⟩)
        · exact .inr (.inr ⟨t, ht.symm, hu⟩)

/-- A signature has a hereditary property when it has the property itself and the types in its
    slots have it. -/
theorem Signature.all_iff {f : Signature} :
    f.All C Q ↔ Q f ∧ ∀ t, some t ∈ f.slots → t.All C Q := by
  simp only [Signature.All, Signature.nested, Ty.All, Ty.nested, List.forall_mem_cons,
    List.mem_filterMap, Signature.mem_parts]
  constructor
  · rintro ⟨classes, own, nested⟩
    exact ⟨own, fun t ht => ⟨fun u hu => classes u ⟨t, ht, hu⟩,
      fun g ⟨u, hu, hg⟩ => nested g ⟨u, ⟨t, ht, hu⟩, hg⟩⟩⟩
  · rintro ⟨own, slots⟩
    exact ⟨fun u ⟨t, ht, hu⟩ => (slots t ht).1 u hu, own,
      fun g ⟨u, ⟨t, ht, hu⟩, hg⟩ => (slots t ht).2 g ⟨u, hu, hg⟩⟩

theorem Ty.all_callableOf (nil : C []) {f : Signature} :
    (Ty.callableOf f).All C Q ↔ f.All C Q := by
  simp [Ty.callableOf, Ty.all_union, nil]

theorem Signature.All.slot {f : Signature} {t : Ty} (h : f.All C Q) (ht : some t ∈ f.slots) :
    t.All C Q :=
  (Signature.all_iff.1 h).2 t ht

theorem Signature.All.own {f : Signature} (h : f.All C Q) : Q f :=
  (Signature.all_iff.1 h).1

variable {D : ClassSet → Prop} {R : Signature → Prop}

theorem Ty.All.imp {t : Ty} (classes : ∀ c, C c → D c) (signatures : ∀ g, Q g → R g)
    (h : t.All C Q) : t.All D R :=
  ⟨fun u hu => classes _ (h.1 u hu), fun g hg => signatures g (h.2 g hg)⟩

theorem Signature.All.imp {f : Signature} (classes : ∀ c, C c → D c)
    (signatures : ∀ g, Q g → R g) (h : f.All C Q) : f.All D R :=
  ⟨fun u hu => classes _ (h.1 u hu), fun g hg => signatures g (h.2 g hg)⟩

theorem Signature.All.and {f : Signature} (h : f.All C Q) (k : f.All D R) :
    f.All (fun c => C c ∧ D c) fun g => Q g ∧ R g :=
  ⟨fun u hu => ⟨h.1 u hu, k.1 u hu⟩, fun g hg => ⟨h.2 g hg, k.2 g hg⟩⟩

end

end SignatureLattice
