/-
Module: SignatureLattice.Proofs.Outcome
Purpose: Computations that yield a result or fail. How a sequence of them succeeds, what a test that
  may fail decides, and when two computations go the same way: both fail, with related errors, or
  both yield results that are related.
Main exports: Outcome.bind_eq_ok, Outcome.mapM_eq_ok, Outcome.mapM_range_eq_ok, Outcome.Decides,
  Outcome.Related, Outcome.Related.bind, Outcome.Related.mapM
-/
import Mathlib.Data.List.Forall2

namespace SignatureLattice.Outcome

variable {ε α β γ δ : Type}

/-!
### Success
-/

theorem bind_eq_ok {r : Except ε α} {next : α → Except ε β} {b : β} :
    r >>= next = .ok b ↔ ∃ a, r = .ok a ∧ next a = .ok b := by
  cases r with
  | error e => simp [bind, Except.bind]
  | ok a => simp [bind, Except.bind]

theorem map_eq_ok {r : Except ε α} {view : α → β} {b : β} :
    view <$> r = .ok b ↔ ∃ a, r = .ok a ∧ view a = b := by
  cases r with
  | error e => simp [Functor.map, Except.map]
  | ok a => simp [Functor.map, Except.map]

theorem ite_eq_ok {rule : Prop} [Decidable rule] {a b : α} {e : ε} :
    (if rule then .ok a else .error e) = Except.ok b ↔ rule ∧ a = b := by
  by_cases kept : rule <;> simp [kept]

theorem ite_eq_error {rule : Prop} [Decidable rule] {a : α} {e e' : ε} :
    (if rule then .ok a else .error e) = Except.error e' ↔ ¬ rule ∧ e = e' := by
  by_cases kept : rule <;> simp [kept]

theorem isOk_ite {rule : Prop} [Decidable rule] {a : α} {e : ε} :
    (if rule then Except.ok a else .error e).isOk = decide rule := by
  by_cases kept : rule <;> simp [kept, Except.isOk, Except.toBool]

/-- A computation for each element of a list succeeds when each of them does. -/
theorem mapM_eq_ok {step : α → Except ε β} {l : List α} {m : List β} :
    l.mapM step = .ok m ↔ l.map step = m.map .ok := by
  induction l generalizing m with
  | nil => cases m <;> simp [pure, Except.pure]
  | cons a l ih =>
      rw [List.mapM_cons, bind_eq_ok, List.map_cons]
      constructor
      · rintro ⟨b, hb, h⟩
        obtain ⟨rest, hrest, h⟩ := bind_eq_ok.1 h
        obtain rfl : b :: rest = m := by simpa [pure, Except.pure] using h
        rw [hb, ih.1 hrest, List.map_cons]
      · intro h
        obtain ⟨b, rest, rfl, hb, hrest⟩ := List.map_eq_cons_iff.1 h.symm
        exact ⟨b, hb.symm, bind_eq_ok.2 ⟨rest, ih.2 hrest.symm, rfl⟩⟩

/-- Reading off the results of computations for each element. -/
theorem mapM_map {step : α → Except ε β} {view : β → γ} {l : List α} :
    l.mapM (fun a => view <$> step a) = List.map view <$> l.mapM step := by
  induction l with
  | nil => rfl
  | cons a l ih =>
      rw [List.mapM_cons, List.mapM_cons, ih]
      cases step a with
      | error e => rfl
      | ok b => cases l.mapM step <;> rfl

theorem exists_mapM {step : α → Except ε β} {l : List α} (h : ∀ a ∈ l, ∃ b, step a = .ok b) :
    ∃ m, l.mapM step = .ok m := by
  induction l with
  | nil => exact ⟨[], rfl⟩
  | cons a l ih =>
      obtain ⟨b, hb⟩ := h a (List.mem_cons_self ..)
      obtain ⟨m, hm⟩ := ih fun a' ha' => h a' (List.mem_cons_of_mem a ha')
      exact ⟨b :: m, by rw [List.mapM_cons, hb, hm]; rfl⟩

/-- A computation for each number below `n` succeeds when each of them does. -/
theorem mapM_range_eq_ok {n : Nat} {step : Nat → Except ε β} {m : List β} :
    (List.range n).mapM step = .ok m ↔
      m.length = n ∧ ∀ (i : Nat) (h : i < m.length), step i = .ok m[i] := by
  rw [mapM_eq_ok]
  constructor
  · intro h
    have length : n = m.length := by simpa using congrArg List.length h
    refine ⟨length.symm, fun i hi => ?_⟩
    have entry := congrArg (·[i]?) h
    simpa [length, hi] using entry
  · rintro ⟨rfl, h⟩
    apply List.ext_getElem (by simp)
    intro i hi _
    simpa using h i (by simpa using hi)

/-!
### Tests
-/

/-- A test decides a property when it has an answer, which is yes just when the property holds. -/
def Decides (P : Prop) (test : Except ε Bool) : Prop :=
  ∃ holds, test = .ok holds ∧ (holds = true ↔ P)

section

variable {P Q : Prop} {x y : Except ε Bool}

theorem Decides.congr (h : Decides P x) (iff : P ↔ Q) : Decides Q x := by
  obtain ⟨holds, answer, rule⟩ := h
  exact ⟨holds, answer, rule.trans iff⟩

theorem Decides.eq_true_iff (h : Decides P x) : x = .ok true ↔ P := by
  obtain ⟨holds, rfl, rule⟩ := h
  simpa using rule

/-- Two tests, of which the second is not made when the first says no, decide whether both
    properties hold. -/
theorem Decides.and (hx : Decides P x) (hy : Decides Q y) :
    Decides (P ∧ Q) (do if ← x then y else return false) := by
  obtain ⟨first, rfl, left⟩ := hx
  cases first with
  | true => exact hy.congr (and_iff_right (left.1 rfl)).symm
  | false => exact ⟨false, rfl, by simp [← left]⟩

/-- A test of each element of a list, until one says no, decides whether all elements have the
    property. -/
theorem Decides.allM {test : α → Except ε Bool} {P : α → Prop} {l : List α}
    (h : ∀ a ∈ l, Decides (P a) (test a)) : Decides (∀ a ∈ l, P a) (l.allM test) := by
  induction l with
  | nil => exact ⟨true, rfl, by simp⟩
  | cons a l ih =>
      have head := h a (List.mem_cons_self ..)
      have tail := ih fun b hb => h b (List.mem_cons_of_mem a hb)
      obtain ⟨first, answer, left⟩ := head
      rw [List.allM, answer]
      cases first with
      | true => exact tail.congr (by rw [List.forall_mem_cons, and_iff_right (left.1 rfl)])
      | false => exact ⟨false, rfl, by simp [← left]⟩

end

/-!
### Two computations that go the same way
-/

/-- Two computations go the same way when both fail, with errors related by `e`, or both succeed,
    with results related by `r`. -/
def Related (e : ε → ε → Prop) (r : α → β → Prop) : Except ε α → Except ε β → Prop
  | .ok a, .ok b => r a b
  | .error v, .error w => e v w
  | _, _ => False

section

variable {e : ε → ε → Prop} {r : α → β → Prop} {q : γ → δ → Prop}

@[simp] theorem related_ok {a : α} {b : β} : Related e r (.ok a) (.ok b) ↔ r a b := Iff.rfl

@[simp] theorem related_error {v w : ε} :
    Related e r (.error v : Except ε α) (.error w : Except ε β) ↔ e v w := Iff.rfl

theorem Related.bind {x : Except ε α} {y : Except ε β} {f : α → Except ε γ} {g : β → Except ε δ}
    (h : Related e r x y) (next : ∀ a b, r a b → Related e q (f a) (g b)) :
    Related e q (x >>= f) (y >>= g) := by
  cases x with
  | error v =>
      cases y with
      | error w => exact h
      | ok b => exact False.elim h
  | ok a =>
      cases y with
      | error w => exact False.elim h
      | ok b => exact next a b h

theorem Related.map {x : Except ε α} {y : Except ε β} {f : α → γ} {g : β → δ}
    (h : Related e r x y) (next : ∀ a b, r a b → q (f a) (g b)) :
    Related e q (f <$> x) (g <$> y) := by
  cases x with
  | error v =>
      cases y with
      | error w => exact h
      | ok b => exact False.elim h
  | ok a =>
      cases y with
      | error w => exact False.elim h
      | ok b => exact next a b h

/-- Computations for the elements of a list go the same way when they do element by element. -/
theorem Related.mapM {f : γ → Except ε α} {g : γ → Except ε β} {l : List γ}
    (h : ∀ i ∈ l, Related e r (f i) (g i)) :
    Related e (List.Forall₂ r) (l.mapM f) (l.mapM g) := by
  induction l with
  | nil => exact List.Forall₂.nil
  | cons i l ih =>
      rw [List.mapM_cons, List.mapM_cons]
      apply (h i (List.mem_cons_self ..)).bind
      intro a b hab
      apply (ih fun j hj => h j (List.mem_cons_of_mem i hj)).bind
      intro m m' hm
      exact List.Forall₂.cons hab hm

end

end SignatureLattice.Outcome
