/-
Module: SignatureLattice.Proofs.Compatibility
Purpose: What the approximate test decides. It looks for types of which the lower bound is the type
  of no value, so that it asks no more than that two signatures overlap position by position and in
  their results, and it does not matter which of them comes first.
Main exports: Shape.Compatible, Signature.Compatible, Signature.isCompatibleWith_decides,
  isCompatibleWith_comm
-/
import SignatureLattice.Proofs.Overlap

namespace SignatureLattice

open Outcome

/-!
### Signatures that are compatible
-/

/-- Two shapes are compatible when their demands overlap at every position that one of them
    requires, and so do their results, if both return at all. -/
structure Shape.Compatible (s t : Shape) : Prop where
  formals : ∀ i, i < max s.required.length t.required.length →
    Slot.Overlap (s.formalAt? i) (t.formalAt? i)
  returned : Slot.Concur s.returned t.returned

theorem Shape.Compatible.symm {s t : Shape} (h : s.Compatible t) : t.Compatible s where
  formals i hi := (h.formals i (by rwa [Nat.max_comm])).symm
  returned := h.returned.symm

/-- Two signatures are compatible when one of them is a top sentinel or their shapes are
    compatible. -/
def Signature.Compatible : Signature → Signature → Prop
  | .shaped s, .shaped t => s.Compatible t
  | _, _ => True

theorem Signature.Compatible.symm {f g : Signature} (h : f.Compatible g) : g.Compatible f := by
  match f, g with
  | .shaped s, .shaped t => exact Shape.Compatible.symm h
  | .top _, .top _ | .top _, .shaped _ | .shaped _, .top _ => trivial

/-!
### The test
-/

/-- Two deeply valid types have a lower bound, and looking at it decides whether they overlap. -/
theorem Ty.meet_decides {a b : Ty} (ha : a.DeeplyValid) (hb : b.DeeplyValid) :
    Decides (a.overlaps b = true) ((!·.isBottom) <$> Ty.combine .meet a b) := by
  obtain ⟨c, hc, -⟩ := Ty.combine_total .meet ha hb
  refine ⟨!c.isBottom, by rw [hc]; rfl, ?_⟩
  rw [Ty.isBottom_of_meet hc, Bool.not_not]

namespace Shape

variable {s t : Shape}

theorem agreeAt_decides (hs : (Signature.shaped s).DeeplyValid)
    (ht : (Signature.shaped t).DeeplyValid) (i : Nat) :
    Decides (Slot.Overlap (s.formalAt? i) (t.formalAt? i)) (s.agreeAt t i) := by
  have deeps : ∀ {a}, s.formalAt? i = some a → a.DeeplyValid := fun ha =>
    hs.slot (ha ▸ s.formalAt?_mem_slots i)
  have deept : ∀ {b}, t.formalAt? i = some b → b.DeeplyValid := fun hb =>
    ht.slot (hb ▸ t.formalAt?_mem_slots i)
  unfold agreeAt
  split
  · rename_i a b ha hb
    refine (Ty.meet_decides (deeps ha) (deept hb)).congr ?_
    rw [ha, hb]
    exact ⟨by rintro h _ _ ⟨⟩ ⟨⟩; exact h, fun h => h a b rfl rfl⟩
  · rename_i absent
    exact ⟨true, rfl, iff_of_true rfl fun a b ha hb => (absent a b ha hb).elim⟩

theorem agreeOnReturn_decides (hs : (Signature.shaped s).DeeplyValid)
    (ht : (Signature.shaped t).DeeplyValid) :
    Decides (Slot.Concur s.returned t.returned) (s.agreeOnReturn t) := by
  obtain ⟨a, ha⟩ := exists_returned hs.own
  obtain ⟨b, hb⟩ := exists_returned ht.own
  rw [agreeOnReturn, ha, hb, Option.any_some, Option.any_some]
  split
  · rename_i silent
    refine ⟨true, rfl, iff_of_true rfl fun returnss returnst => ?_⟩
    rcases (Bool.or_eq_true _ _).mp silent with bottom | bottom
    · exact absurd (congrArg some (Ty.isBottom_iff.1 bottom)) returnss
    · exact absurd (congrArg some (Ty.isBottom_iff.1 bottom)) returnst
  · rename_i returns
    have returnss : some a ≠ some .bottom := fun bottom => returns <| by
      rw [Ty.isBottom_iff.2 (Option.some.inj bottom), Bool.true_or]
    have returnst : some b ≠ some .bottom := fun bottom => returns <| by
      rw [Ty.isBottom_iff.2 (Option.some.inj bottom), Bool.or_true]
    rw [Slot.meet, Slot.combine_some]
    refine (Ty.meet_decides (returned_deeplyValid hs ha) (returned_deeplyValid ht hb)).congr ?_
    exact ⟨by rintro h - - _ _ ⟨⟩ ⟨⟩; exact h, fun h => h returnss returnst a b rfl rfl⟩

theorem isCompatibleWith_decides (hs : (Signature.shaped s).DeeplyValid)
    (ht : (Signature.shaped t).DeeplyValid) : Decides (s.Compatible t) (s.isCompatibleWith t) := by
  have tested : Decides (s.Compatible t) (do
      if ← (List.range (max s.required.length t.required.length)).allM (s.agreeAt t) then
        s.agreeOnReturn t
      else return false) := by
    refine ((Decides.allM fun i _ => agreeAt_decides hs ht i).and
      (agreeOnReturn_decides hs ht)).congr ?_
    simp only [List.mem_range]
    exact ⟨fun ⟨formals, returned⟩ => ⟨formals, returned⟩,
      fun ⟨formals, returned⟩ => ⟨formals, returned⟩⟩
  rw [isCompatibleWith, show s.validate = .ok () from hs.own, show t.validate = .ok () from ht.own]
  by_cases required : max s.required.length t.required.length ≠ 0
  · simpa [required, bind, Except.bind] using tested
  · simpa [required, bind, Except.bind] using tested

end Shape

/-- Of deeply valid signatures, one of which is loose, the approximate test decides whether they are
    compatible. -/
theorem Signature.isCompatibleWith_decides {f g : Signature} (hf : f.DeeplyValid)
    (hg : g.DeeplyValid) (loose : f.isLoose = true ∨ g.isLoose = true) :
    Decides (f.Compatible g) (f.isCompatibleWith g) := by
  have guard : (!f.isLoose && !g.isLoose) = false := by
    rcases loose with h | h <;> simp [h]
  unfold Signature.isCompatibleWith
  rw [guard]
  match f, g with
  | .shaped s, .shaped t => exact Shape.isCompatibleWith_decides hf hg
  | .top _, .top _ | .top _, .shaped _ | .shaped _, .top _ =>
      exact ⟨true, rfl, iff_of_true rfl trivial⟩

/-!
### Main theorem
-/

/-- The approximate test does not tell its operands apart: asked of two deeply valid signatures in
    either order it has the same answer, which is whether they are compatible. -/
theorem isCompatibleWith_comm {f g : Signature} (hf : f.DeeplyValid) (hg : g.DeeplyValid)
    (loose : f.isLoose = true ∨ g.isLoose = true) :
    ∃ holds, f.isCompatibleWith g = .ok holds ∧ g.isCompatibleWith f = .ok holds ∧
      (holds = true ↔ f.Compatible g) := by
  obtain ⟨holds, answer, rule⟩ := Signature.isCompatibleWith_decides hf hg loose
  obtain ⟨holds', answer', rule'⟩ := Signature.isCompatibleWith_decides hg hf loose.symm
  have same : holds' = holds := by
    rw [Bool.eq_iff_iff, rule, rule']
    exact ⟨Signature.Compatible.symm, Signature.Compatible.symm⟩
  exact ⟨holds, answer, same ▸ answer', rule⟩

/-- The theorem at a loose variadic signature of which further arguments are functions, and a
    constructor that requires one function and then an instance of its class. -/
theorem isCompatibleWith_comm_variadic :
    let inner : Signature := .shaped
      { required := [some .unknown], result := some .bottom, loose := true }
    let f : Signature := .shaped
      { required := [some .unknown], rest := some (.callableOf inner),
        result := some (.callableOf (.top true)), loose := true }
    let g : Signature := .shaped
      { required := [some (.callableOf .bottom), some (.instanceOf ⟨"Foo", 0⟩)],
        result := some .bottom, owner := some ⟨"Foo", 0⟩ }
    f.isCompatibleWith g = .ok false ∧ g.isCompatibleWith f = .ok false := by
  intro inner f g
  obtain ⟨holds, answer, answer', rule⟩ :=
    isCompatibleWith_comm (f := f) (g := g) (by decide) (by decide) (.inl rfl)
  -- At the second position the one demands a function and the other one an instance.
  have clash : holds = false := by
    rw [Bool.eq_false_iff]
    intro yes
    have compatible : Shape.Compatible _ _ := rule.1 yes
    exact Bool.noConfusion (compatible.formals 1 (by decide) _ _ rfl rfl)
  subst clash
  exact ⟨answer, answer'⟩

end SignatureLattice
