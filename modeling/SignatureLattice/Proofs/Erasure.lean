/-
Module: SignatureLattice.Proofs.Erasure
Purpose: Types and signatures without what equality does not look at: constructed classes and
  captured variables, and looseness unless it is kept. Two trees are equal when nothing else tells
  them apart, so equality is an equivalence, and all that looks at a tree through equality and
  through its slots can be computed on what is left of it.
Main exports: Ty.forget, Signature.forget, Ty.same_iff, Signature.same_iff, Ty.forget_forget,
  Shape.normalized_forget, Signature.All.forget
-/
import SignatureLattice.Signature
import SignatureLattice.Proofs.Hereditary

namespace SignatureLattice

mutual

/-- A type without the constructed classes and captured variables of the signatures nested in it,
    and without their looseness unless it is kept. -/
def Ty.forget (keep : Bool) (t : Ty) : Ty :=
  match t with
  | .top => .top
  | .unknown => .unknown
  | .union p c callable => .union p c (Callable.forget keep callable)
termination_by structural t

@[inherit_doc Ty.forget]
def Callable.forget (keep : Bool) (callable : Callable) : Callable :=
  match callable with
  | none => none
  | some f => some (f.forget keep)
termination_by structural callable

/-- A signature without its constructed class and its captured variables, and without looseness
    unless that is kept, at every depth. -/
def Signature.forget (keep : Bool) (f : Signature) : Signature :=
  match f with
  | .top loose => .top (keep && loose)
  | .shaped s => .shaped (s.forget keep)
termination_by structural f

@[inherit_doc Signature.forget]
def Shape.forget (keep : Bool) (s : Shape) : Shape :=
  match s with
  | ⟨required, optional, rest, result, _, _, loose⟩ =>
      { required := Slot.forgetAll keep required
        optional := Slot.forgetAll keep optional
        rest := Slot.forget keep rest
        result := Slot.forget keep result
        loose := keep && loose }
termination_by structural s

def Slot.forgetAll (keep : Bool) (slots : List Slot) : List Slot :=
  match slots with
  | [] => []
  | x :: xs => Slot.forget keep x :: Slot.forgetAll keep xs
termination_by structural slots

def Slot.forget (keep : Bool) (x : Slot) : Slot :=
  match x with
  | none => none
  | some t => some (t.forget keep)
termination_by structural x

end

section

variable {keep : Bool}

@[simp] theorem Ty.forget_top : Ty.top.forget keep = .top := rfl

@[simp] theorem Ty.forget_unknown : Ty.unknown.forget keep = .unknown := rfl

@[simp] theorem Ty.forget_union (p : Primitives) (c : ClassSet) (callable : Callable) :
    (Ty.union p c callable).forget keep = .union p c (callable.map (Signature.forget keep)) := by
  cases callable <;> rfl

@[simp] theorem Signature.forget_top (loose : Bool) :
    (Signature.top loose).forget keep = .top (keep && loose) := rfl

@[simp] theorem Signature.forget_shaped (s : Shape) :
    (Signature.shaped s).forget keep = .shaped (s.forget keep) := rfl

@[simp] theorem Callable.forget_eq (callable : Callable) :
    Callable.forget keep callable = callable.map (Signature.forget keep) := by
  cases callable <;> rfl

@[simp] theorem Slot.forget_none : Slot.forget keep none = none := rfl

@[simp] theorem Slot.forget_some (t : Ty) : Slot.forget keep (some t) = some (t.forget keep) := rfl

theorem Slot.forgetAll_eq (slots : List Slot) :
    Slot.forgetAll keep slots = slots.map (Slot.forget keep) := by
  induction slots with
  | nil => rfl
  | cons x xs ih => rw [Slot.forgetAll, ih, List.map_cons]

/-- What is left of a shape. -/
theorem Shape.forget_eq (s : Shape) :
    s.forget keep =
      { required := s.required.map (Slot.forget keep)
        optional := s.optional.map (Slot.forget keep)
        rest := Slot.forget keep s.rest
        result := Slot.forget keep s.result
        loose := keep && s.loose } := by
  cases s
  simp only [Shape.forget, Slot.forgetAll_eq]

@[simp] theorem Shape.forget_required (s : Shape) :
    (s.forget keep).required = s.required.map (Slot.forget keep) := by rw [Shape.forget_eq]

@[simp] theorem Shape.forget_optional (s : Shape) :
    (s.forget keep).optional = s.optional.map (Slot.forget keep) := by rw [Shape.forget_eq]

@[simp] theorem Shape.forget_rest (s : Shape) :
    (s.forget keep).rest = Slot.forget keep s.rest := by rw [Shape.forget_eq]

@[simp] theorem Shape.forget_result (s : Shape) :
    (s.forget keep).result = Slot.forget keep s.result := by rw [Shape.forget_eq]

@[simp] theorem Shape.forget_loose (s : Shape) : (s.forget keep).loose = (keep && s.loose) := by
  rw [Shape.forget_eq]

@[simp] theorem Shape.forget_span (s : Shape) : (s.forget keep).span = s.span := by
  simp [Shape.span]

@[simp] theorem Shape.forget_formalAt? (s : Shape) (i : Nat) :
    (s.forget keep).formalAt? i = Slot.forget keep (s.formalAt? i) := by
  simp only [Shape.formalAt?, Shape.forget_required, Shape.forget_optional, Shape.forget_rest,
    List.getD_eq_getElem?_getD, ← List.map_append, List.getElem?_map]
  cases (s.required ++ s.optional)[i]? <;> rfl

@[simp] theorem Signature.forget_slots (f : Signature) :
    (f.forget keep).slots = f.slots.map (Slot.forget keep) := by
  cases f with
  | top loose => rfl
  | shaped s => simp [Shape.slots]

end

/-!
### Equality

Two trees are equal when they are the same tree once looseness is forgotten too.
-/

private theorem Slot.same_iff_of {x y : Slot}
    (ih : ∀ a, x = some a → ∀ b, a.same b = true ↔ a.forget false = b.forget false) :
    Slot.same x y = true ↔ Slot.forget false x = Slot.forget false y := by
  cases x with
  | none => cases y <;> simp [Slot.same]
  | some a => cases y <;> simp [Slot.same, ih a rfl]

private theorem Slot.sameAll_iff_of {l m : List Slot}
    (ih : ∀ a, some a ∈ l → ∀ b, a.same b = true ↔ a.forget false = b.forget false) :
    Slot.sameAll l m = true ↔ l.map (Slot.forget false) = m.map (Slot.forget false) := by
  induction l generalizing m with
  | nil => cases m <;> simp [Slot.sameAll]
  | cons x xs tail =>
      cases m with
      | nil => simp [Slot.sameAll]
      | cons y ys =>
          have head : Slot.same x y = true ↔ Slot.forget false x = Slot.forget false y :=
            Slot.same_iff_of fun a ha => ih a (ha ▸ List.mem_cons_self ..)
          simp only [Slot.sameAll, Bool.and_eq_true, head, List.map_cons, List.cons.injEq,
            tail fun a ha => ih a (List.mem_cons_of_mem x ha)]

private theorem Signature.same_iff_of {f g : Signature}
    (ih : ∀ a, some a ∈ f.slots → ∀ b, a.same b = true ↔ a.forget false = b.forget false) :
    f.same g = true ↔ f.forget false = g.forget false := by
  match f, g with
  | .top _, .top _ => simp [Signature.same]
  | .top _, .shaped _ => simp [Signature.same]
  | .shaped _, .top _ => simp [Signature.same]
  | .shaped s, .shaped t =>
      have formals : ∀ x ∈ s.required ++ s.optional, x ∈ s.slots := fun _ hx =>
        Shape.mem_slots.2 (.inl hx)
      have required : Slot.sameAll s.required t.required = true ↔ _ :=
        Slot.sameAll_iff_of fun a ha => ih a (formals _ (List.mem_append_left _ ha))
      have optional : Slot.sameAll s.optional t.optional = true ↔ _ :=
        Slot.sameAll_iff_of fun a ha => ih a (formals _ (List.mem_append_right _ ha))
      have rest : Slot.same s.rest t.rest = true ↔ _ :=
        Slot.same_iff_of fun a ha => ih a (ha ▸ s.rest_mem_slots)
      have result : Slot.same s.result t.result = true ↔ _ :=
        Slot.same_iff_of fun a ha => ih a (ha ▸ s.result_mem_slots)
      rw [Signature.same, Signature.forget_shaped, Signature.forget_shaped, Shape.forget_eq,
        Shape.forget_eq]
      obtain ⟨_, _, _, _, _, _, _⟩ := s
      simp only [Shape.same, Bool.and_eq_true] at *
      simp only [required, optional, rest, result, Signature.shaped.injEq, Shape.mk.injEq,
        Bool.false_and, and_true, and_assoc]

/-- Equality of types is sameness of what is left of them. -/
theorem Ty.same_iff (a b : Ty) : a.same b = true ↔ a.forget false = b.forget false := by
  induction a using Ty.nested_induction generalizing b with
  | top => cases b <;> simp [Ty.same]
  | unknown => cases b <;> simp [Ty.same]
  | union p c callable ih =>
      cases b with
      | top => simp [Ty.same]
      | unknown => simp [Ty.same]
      | union q d other =>
          simp only [Ty.same, Bool.and_eq_true, beq_iff_eq, Ty.forget_union, Ty.union.injEq,
            and_assoc]
          cases callable with
          | none => cases other <;> simp [Callable.same]
          | some f =>
              cases other with
              | none => simp [Callable.same]
              | some g => simp [Callable.same, Signature.same_iff_of (ih f rfl)]

/-- Equality of signatures is sameness of what is left of them. -/
theorem Signature.same_iff (f g : Signature) :
    f.same g = true ↔ f.forget false = g.forget false :=
  Signature.same_iff_of fun a _ => Ty.same_iff a

theorem Slot.same_iff (x y : Slot) :
    Slot.same x y = true ↔ Slot.forget false x = Slot.forget false y :=
  Slot.same_iff_of fun a _ => Ty.same_iff a

theorem Callable.same_iff (f g : Callable) :
    Callable.same f g = true ↔ Callable.forget false f = Callable.forget false g := by
  cases f with
  | none => cases g <;> simp [Callable.same]
  | some f => cases g <;> simp [Callable.same, Signature.same_iff]

theorem Shape.same_iff (s t : Shape) : s.same t = true ↔ s.forget false = t.forget false := by
  simpa [Signature.same] using Signature.same_iff (.shaped s) (.shaped t)

/-!
### Forgetting twice
-/

private theorem Signature.forget_forget_of {j k : Bool} {f : Signature}
    (ih : ∀ a, some a ∈ f.slots → (a.forget k).forget j = a.forget (j && k)) :
    (f.forget k).forget j = f.forget (j && k) := by
  cases f with
  | top loose => simp [Bool.and_assoc]
  | shaped s =>
      have slot : ∀ x ∈ s.slots, Slot.forget j (Slot.forget k x) = Slot.forget (j && k) x := by
        intro x hx
        cases x with
        | none => rfl
        | some a => simp [ih a hx]
      have list : ∀ l : List Slot, (∀ x ∈ l, x ∈ s.slots) →
          (l.map (Slot.forget k)).map (Slot.forget j) = l.map (Slot.forget (j && k)) := by
        intro l hl
        rw [List.map_map]
        exact List.map_congr_left fun x hx => slot x (hl x hx)
      have formals : ∀ x ∈ s.required ++ s.optional, x ∈ s.slots := fun _ hx =>
        Shape.mem_slots.2 (.inl hx)
      simp only [Signature.forget_shaped, Shape.forget_eq, list s.required fun x hx =>
          formals x (List.mem_append_left _ hx),
        list s.optional fun x hx => formals x (List.mem_append_right _ hx),
        slot s.rest s.rest_mem_slots, slot s.result s.result_mem_slots, Bool.and_assoc]

@[simp] theorem Ty.forget_forget (j k : Bool) (t : Ty) :
    (t.forget k).forget j = t.forget (j && k) := by
  induction t using Ty.nested_induction with
  | top => rfl
  | unknown => rfl
  | union p c callable ih =>
      cases callable with
      | none => rfl
      | some f => simp [Signature.forget_forget_of (ih f rfl)]

@[simp] theorem Signature.forget_forget (j k : Bool) (f : Signature) :
    (f.forget k).forget j = f.forget (j && k) :=
  Signature.forget_forget_of fun a _ => a.forget_forget j k

@[simp] theorem Slot.forget_forget (j k : Bool) (x : Slot) :
    Slot.forget j (Slot.forget k x) = Slot.forget (j && k) x := by
  cases x with
  | none => rfl
  | some a => simp

@[simp] theorem Shape.forget_forget (j k : Bool) (s : Shape) :
    (s.forget k).forget j = s.forget (j && k) := by
  simpa using Signature.forget_forget j k (.shaped s)

/-!
### What looks at a tree through equality and slots

Forgetting changes neither what is equal nor what is valid, and normalizing before or after makes no
difference.
-/

@[simp] theorem Ty.same_forget (j k : Bool) (a b : Ty) :
    (a.forget j).same (b.forget k) = a.same b := by
  rw [Bool.eq_iff_iff, Ty.same_iff, Ty.same_iff]
  simp

@[simp] theorem Signature.same_forget (j k : Bool) (f g : Signature) :
    (f.forget j).same (g.forget k) = f.same g := by
  rw [Bool.eq_iff_iff, Signature.same_iff, Signature.same_iff]
  simp

@[simp] theorem Shape.same_forget (j k : Bool) (s t : Shape) :
    (s.forget j).same (t.forget k) = s.same t := by
  rw [Bool.eq_iff_iff, Shape.same_iff, Shape.same_iff]
  simp

@[simp] theorem Slot.same_forget (j k : Bool) (x y : Slot) :
    Slot.same (Slot.forget j x) (Slot.forget k y) = Slot.same x y := by
  rw [Bool.eq_iff_iff, Slot.same_iff, Slot.same_iff]
  simp

/-- Signatures of which the same is left are equal. -/
theorem Signature.same_of_forget {k : Bool} {f g : Signature} (h : f.forget k = g.forget k) :
    f.same g = true := by
  rw [← Signature.same_forget k k, h]
  exact (Signature.same_iff _ _).2 rfl

@[simp] theorem Ty.isTop_forget (k : Bool) (t : Ty) : (t.forget k).isTop = t.isTop := by
  cases t <;> rfl

@[simp] theorem Slot.isNone_forget (k : Bool) (x : Slot) :
    (Slot.forget k x).isNone = x.isNone := by
  cases x <;> rfl

@[simp] theorem Slot.forget_eq_none_iff {k : Bool} {x : Slot} :
    Slot.forget k x = none ↔ x = none := by
  cases x <;> simp

@[simp] theorem Shape.forget_bottom (k : Bool) : Shape.bottom.forget k = Shape.bottom := by
  rw [Shape.forget_eq]
  simp [Shape.bottom, Ty.bottom]

@[simp] theorem Shape.isBottom_forget (k : Bool) (s : Shape) :
    (s.forget k).isBottom = s.isBottom := by
  rw [Shape.isBottom, ← Shape.forget_bottom k, Shape.same_forget]
  rfl

@[simp] theorem Signature.isBottom_forget (k : Bool) (f : Signature) :
    (f.forget k).isBottom = f.isBottom := by
  cases f with
  | top loose => rfl
  | shaped s => exact s.isBottom_forget k

@[simp] theorem Shape.validate_forget (k : Bool) (s : Shape) :
    (s.forget k).validate = s.validate := by
  have any : ∀ l : List Slot,
      (l.map (Slot.forget k)).any Option.isNone = l.any Option.isNone := by
    intro l
    rw [List.any_map]
    exact congrArg l.any (funext fun x => Slot.isNone_forget k x)
  simp only [Shape.validate, Shape.forget_required, Shape.forget_optional, Shape.forget_result,
    any, Slot.isNone_forget]

theorem Shape.normalized_forget (k : Bool) (s : Shape) :
    (s.forget k).normalized = s.normalized.forget k := by
  unfold Shape.normalized
  cases rest : s.rest with
  | none => simp [rest]
  | some r =>
      rw [Shape.forget_rest, rest, Slot.forget_some]
      have strip : Slot.same (some (r.forget k)) ∘ Slot.forget k = Slot.same (some r) := by
        funext x
        exact Slot.same_forget k k (some r) x
      simp only [Shape.forget_eq, ← List.map_reverse, List.dropWhile_map, strip, rest,
        Slot.forget_some]

/-!
### What is nested
-/

section

variable {C : ClassSet → Prop} {Q R : Signature → Prop}

private theorem Signature.All.forget_of {k : Bool} {f : Signature}
    (ih : ∀ a, some a ∈ f.slots → a.All C Q → (a.forget k).All C R)
    (own : ∀ g : Signature, Q g → R (g.forget k)) (h : f.All C Q) : (f.forget k).All C R := by
  refine Signature.all_iff.2 ⟨own f h.own, fun t ht => ?_⟩
  rw [Signature.forget_slots, List.mem_map] at ht
  obtain ⟨x, hx, eq⟩ := ht
  cases x with
  | none => simp at eq
  | some a =>
      obtain rfl : a.forget k = t := by simpa using eq
      exact ih a hx (h.slot hx)

/-- A hereditary property passes to what is left of a type if it does so for one signature. -/
theorem Ty.All.forget {k : Bool} (nil : C []) (own : ∀ g : Signature, Q g → R (g.forget k))
    {t : Ty} (h : t.All C Q) : (t.forget k).All C R := by
  induction t using Ty.nested_induction with
  | top => exact Ty.all_top nil
  | unknown => exact Ty.all_unknown nil
  | union p c callable ih =>
      obtain ⟨classes, nested⟩ := Ty.all_union.1 h
      rw [Ty.forget_union]
      refine Ty.all_union.2 ⟨classes, fun f hf => ?_⟩
      obtain ⟨g, rfl, rfl⟩ := Option.map_eq_some_iff.1 hf
      exact Signature.All.forget_of (ih g rfl) own (nested g rfl)

theorem Signature.All.forget {k : Bool} (nil : C []) (own : ∀ g : Signature, Q g → R (g.forget k))
    {f : Signature} (h : f.All C Q) : (f.forget k).All C R :=
  Signature.All.forget_of (fun _ _ => Ty.All.forget nil own) own h

end

end SignatureLattice
