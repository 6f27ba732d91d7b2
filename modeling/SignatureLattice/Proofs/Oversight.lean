/-
Module: SignatureLattice.Proofs.Oversight
Purpose: What supervision adds to an operation: nothing but the refusal of faulty operands and a
  line on the stream for each call that is answered. A result never has to be refused, since
  operands that pass their check have results that pass it.
Main exports: Callable.fault?, Operation.fault?_of_apply, Supervision.answer, Supervision.trail,
  Supervision.serve_eq, supervision_transparent
-/
import SignatureLattice.Supervision
import SignatureLattice.Proofs.Validity

namespace SignatureLattice

open Outcome

/-- What the check of a signature reports, if there is a signature and it fails its check. -/
def Callable.fault? (f : Callable) : Option Violation :=
  match f with
  | none => none
  | some f =>
      match f.validate with
      | .ok _ => none
      | .error violation => some violation

@[simp] theorem Callable.fault?_none : Callable.fault? none = none := rfl

theorem Callable.fault?_some {f : Signature} :
    Callable.fault? (some f) = none ↔ f.validate = .ok () := by
  cases h : f.validate <;> simp [Callable.fault?, h]

/-!
### Results need no check

The check looks at one signature and not at those nested in it. So do the following lemmas: the
operands may be malformed further down, as long as the operation yields a result.
-/

theorem Callable.fault?_of_combine {bound : Bound} {f g u : Callable} (hf : f.fault? = none)
    (hg : g.fault? = none) (h : Callable.combine bound f g = .ok u) : u.fault? = none := by
  rcases Callable.combine_cases h with rfl | rfl | rfl | ⟨f, g, u, rfl, rfl, rfl, hu⟩
  · rfl
  · exact hf
  · exact hg
  · have left := Callable.fault?_some.1 hf
    have right := Callable.fault?_some.1 hg
    apply Callable.fault?_some.2
    exact Inherited.validity.own left right hu

theorem Signature.fault?_of_specialize {f : Signature} {g u : Callable}
    (hf : Callable.fault? (some f) = none) (hg : g.fault? = none) (h : f.specialize g = .ok u) :
    u.fault? = none := by
  rcases Signature.specialize_cases h with rfl | rfl | met
  · rfl
  · exact hf
  · exact Callable.fault?_of_combine hf hg met

/-- A signature that an operation yields passes its check if the operands do. -/
theorem Operation.fault?_of_apply {operation : Operation} {f g u : Callable}
    (hf : f.fault? = none) (hg : g.fault? = none)
    (h : operation.apply f g = .ok (.signature u)) : u.fault? = none := by
  have yields : ∀ {x : Except Violation Callable}, Answer.signature <$> x = .ok (.signature u) →
      x = .ok u := by
    intro x hx
    obtain ⟨w, hw, eq⟩ := map_eq_ok.1 hx
    rw [hw, Answer.signature.inj eq]
  have judges : ∀ {x : Except Violation Bool}, Answer.verdict <$> x ≠ .ok (.signature u) := by
    intro x hx
    obtain ⟨w, -, eq⟩ := map_eq_ok.1 hx
    exact Answer.noConfusion eq
  by_cases misses : operation.missesOperand f g = true
  · rw [apply_of_missesOperand misses] at h
    exact nomatch h
  · rw [missesOperand_iff] at misses
    cases operation with
    | join =>
        rw [apply_join] at h
        exact Callable.fault?_of_combine hf hg (yields h)
    | meet =>
        rw [apply_meet] at h
        exact Callable.fault?_of_combine hf hg (yields h)
    | specialize =>
        obtain ⟨f, rfl⟩ := Option.ne_none_iff_exists'.1 fun none => misses (.inl ⟨rfl, none⟩)
        rw [apply_specialize] at h
        exact Signature.fault?_of_specialize hf hg (yields h)
    | subtype =>
        obtain ⟨f, rfl⟩ := Option.ne_none_iff_exists'.1 fun none =>
          misses (.inr ⟨.inl rfl, .inl none⟩)
        obtain ⟨g, rfl⟩ := Option.ne_none_iff_exists'.1 fun none =>
          misses (.inr ⟨.inl rfl, .inr none⟩)
        rw [apply_subtype] at h
        exact absurd h judges
    | compatible =>
        obtain ⟨f, rfl⟩ := Option.ne_none_iff_exists'.1 fun none =>
          misses (.inr ⟨.inr rfl, .inl none⟩)
        obtain ⟨g, rfl⟩ := Option.ne_none_iff_exists'.1 fun none =>
          misses (.inr ⟨.inr rfl, .inr none⟩)
        rw [apply_compatible] at h
        exact absurd h judges

/-!
### One call
-/

theorem Record.line_ne_empty (r : Record) : r.line ≠ "" := by
  intro h
  have ending := (String.append_eq_empty_iff.1 h).2
  exact absurd ending (by decide)

namespace Supervision

/-- What supervision finds wrong with an operand. It finds nothing unless it verifies. -/
def finding? (supervision : Supervision) (f : Callable) : Option Violation :=
  if supervision.verify then f.fault? else none

/-- The error on account of which a call is refused: an operand that has to be there comes first,
    then what is wrong with the left operand, then what is wrong with the right one. -/
def refusal? (supervision : Supervision) (call : Call) : Option Violation :=
  if call.operation.missesOperand call.left call.right then
    some (.absentSignature call.operation)
  else (supervision.finding? call.left).or (supervision.finding? call.right)

/-- The answer to a call: that of the operation, unless the call is refused. -/
def answer (supervision : Supervision) (call : Call) : Except Violation Answer :=
  match supervision.refusal? call with
  | some violation => .error violation
  | none => call.operation.apply call.left call.right

/-- What a call leaves on the stream: its record if it is answered and supervision traces, and
    nothing otherwise. -/
def trail (supervision : Supervision) (call : Call) : String :=
  match supervision.answer call with
  | .ok answer =>
      if supervision.trace then (Record.of call.operation call.left call.right answer).line else ""
  | .error _ => ""

variable (supervision : Supervision)

theorem check_eq (f : Callable) :
    supervision.check f =
      match supervision.finding? f with
      | some violation => .error violation
      | none => .ok () := by
  cases f with
  | none => simp [check, finding?]
  | some f =>
      rw [check, finding?, Callable.fault?]
      cases supervision.verify <;> cases f.validate <;> rfl

/-- The check of an answer finds nothing if the operands passed theirs. -/
theorem checkAnswer_eq {operation : Operation} {f g : Callable} {answer : Answer}
    (hf : supervision.finding? f = none) (hg : supervision.finding? g = none)
    (h : operation.apply f g = .ok answer) : supervision.checkAnswer answer = .ok () := by
  cases answer with
  | verdict holds => rfl
  | signature u =>
      have found : supervision.finding? u = none := by
        cases verify : supervision.verify with
        | false => simp [finding?, verify]
        | true =>
            have left : f.fault? = none := by simpa [finding?, verify] using hf
            have right : g.fault? = none := by simpa [finding?, verify] using hg
            simpa [finding?, verify] using Operation.fault?_of_apply left right h
      rw [checkAnswer, check_eq, found]

theorem perform_eq (call : Call) :
    supervision.perform call.operation call.left call.right =
      (fun answer =>
        { answer, record := supervision.keep (.of call.operation call.left call.right answer) }) <$>
        supervision.answer call := by
  rw [perform, answer, refusal?]
  -- The steps are taken in the order in which a refusal looks for its cause.
  cases call.operation.missesOperand call.left call.right with
  | true => rfl
  | false =>
      simp only [check_eq, Bool.false_eq_true, if_false]
      cases left : supervision.finding? call.left with
      | some violation => rfl
      | none =>
          cases right : supervision.finding? call.right with
          | some violation => rfl
          | none =>
              cases applied : call.operation.apply call.left call.right with
              | error violation => rfl
              | ok answer =>
                  have passes := supervision.checkAnswer_eq left right applied
                  simp [passes, bind, Except.bind, pure, Except.pure, Functor.map,
                    Except.map]

/-- A call gets its answer and leaves its trail on the stream. -/
theorem serve_eq (stream : String) (call : Call) :
    supervision.serve stream call =
      (supervision.answer call, stream ++ supervision.trail call) := by
  rw [serve, perform_eq, trail]
  cases supervision.answer call with
  | error violation => simp [Functor.map, Except.map]
  | ok answer => cases trace : supervision.trace <;>
      simp [Functor.map, Except.map, keep, trace, Record.text]

/-!
### A run of calls
-/

/-- The calls of a run are answered independently of one another, and their trails stand on the
    stream in the order of the calls. -/
theorem serveAll_eq (stream : String) (calls : List Call) :
    supervision.serveAll stream calls =
      (calls.map supervision.answer, stream ++ String.join (calls.map supervision.trail)) := by
  induction calls generalizing stream with
  | nil => simp [serveAll, String.join]
  | cons call calls ih =>
      simp only [serveAll, serve_eq, ih]
      simp [String.append_assoc]

/-- The line of a record is never empty, so a trail tells that a call was answered. -/
theorem trail_ne_empty (call : Call) :
    supervision.trail call ≠ "" ↔
      supervision.trace = true ∧ ∃ answer, supervision.answer call = .ok answer := by
  rw [trail]
  cases supervision.answer call with
  | error violation => simp
  | ok answer =>
      have line := (Record.of call.operation call.left call.right answer).line_ne_empty
      cases supervision.trace with
      | true => simpa using line
      | false => simp

end Supervision

/-- Supervision is transparent. A call is answered by its operation, unless an operand that has to
    be there is absent or, where operands are verified, one of them fails its check. The result of
    operands that pass their check passes it too. Nothing is written but one line for each call that
    is answered while supervision traces, and a run of calls is answered call by call. -/
theorem supervision_transparent (supervision : Supervision) :
    (∀ stream call, supervision.serve stream call =
      (supervision.answer call, stream ++ supervision.trail call)) ∧
    (∀ (call : Call) u, call.left.fault? = none → call.right.fault? = none →
      call.operation.apply call.left call.right = .ok (.signature u) → u.fault? = none) ∧
    (∀ call, supervision.trail call ≠ "" ↔
      supervision.trace = true ∧ ∃ answer, supervision.answer call = .ok answer) ∧
    (∀ (call : Call) answer, supervision.trace = true → supervision.answer call = .ok answer →
      supervision.trail call =
        "[lattice] " ++ call.operation.label ++ " " ++ Callable.render call.left ++ " | " ++
          Callable.render call.right ++ " -> " ++ answer.render ++ "\n") ∧
    ∀ stream calls, supervision.serveAll stream calls =
      (calls.map supervision.answer, stream ++ String.join (calls.map supervision.trail)) := by
  have sound : ∀ (call : Call) u, call.left.fault? = none → call.right.fault? = none →
      call.operation.apply call.left call.right = .ok (.signature u) → u.fault? = none :=
    fun call u left right applied => Operation.fault?_of_apply left right applied
  have line : ∀ (call : Call) answer, supervision.trace = true →
      supervision.answer call = .ok answer → supervision.trail call =
        "[lattice] " ++ call.operation.label ++ " " ++ Callable.render call.left ++ " | " ++
          Callable.render call.right ++ " -> " ++ answer.render ++ "\n" := by
    intro call answer trace answered
    rw [Supervision.trail, answered]
    exact if_pos trace
  exact ⟨supervision.serve_eq, sound, supervision.trail_ne_empty, line, supervision.serveAll_eq⟩

end SignatureLattice
