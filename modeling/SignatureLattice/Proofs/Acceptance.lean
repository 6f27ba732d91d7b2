/-
Module: SignatureLattice.Proofs.Acceptance
Purpose: What a draft in use amounts to. The draft is at any time what was said of it: the formals
  and the result as far as they were accepted, and everything else as it was stated. The accepted
  statements alone decide which statements are refused, and a refusal leaves no mark on the draft.
Main exports: Draft.Step.edit_run, Draft.stated, Draft.accepted, Draft.Step.Breaks, Draft.recorded,
  Draft.Follows, Draft.Follows.step_eq_error_iff, Draft.Follows.answerAll, Draft.answerAll_snd
-/
import SignatureLattice.Drafting
import SignatureLattice.Proofs.Outcome

namespace SignatureLattice

open Outcome

namespace Draft

/-!
### One call

An edit that fails does not undo what it has done. But every edit looks at all its rules before it
changes anything, so that there is nothing to undo.
-/

theorem Edit.run_get_bind {α : Type} (next : Draft → Edit α) (d : Draft) :
    (get >>= next).run d = (next d).run d := rfl

theorem Edit.run_require_bind {α : Type} (kept : Bool) (violation : Violation) (next : Edit α)
    (d : Draft) :
    (Edit.require kept violation >>= fun _ => next).run d =
      if kept then next.run d else .error violation d := by
  cases kept <;> rfl

/-- A statement in place changes the draft into the next one, or fails and changes nothing. -/
theorem Step.edit_run (a : Step) (d : Draft) :
    a.edit.run d =
      match d.step a with
      | .ok next => .ok () next
      | .error violation => .error violation d := by
  cases a with
  | required x =>
      rw [edit, Edit.run_get_bind, Edit.run_require_bind, step]
      split <;> rfl
  | optional x =>
      rw [edit, Edit.run_get_bind, Edit.run_require_bind, step]
      split <;> rfl
  | rest x =>
      cases x with
      | none => rfl
      | some t =>
          rw [edit, Edit.run_require_bind, Option.isSome_some, if_pos rfl, Edit.run_get_bind,
            Edit.run_require_bind, step, Option.isNone_some, if_neg Bool.false_ne_true]
          split <;> rfl
  | result x =>
      rw [edit, Edit.run_get_bind, Edit.run_require_bind, step]
      split <;> rfl
  | owner c => rfl
  | capture name x => rfl
  | loose => rfl

theorem answer_state (d : Draft) (a : Step) :
    d.answer (.state a) =
      match d.step a with
      | .ok next => (.accepted, next)
      | .error violation => (.refused violation, d) := by
  rw [answer, Step.edit_run]
  cases d.step a <;> rfl

theorem answer_refused_iff {d : Draft} {a : Step} {violation : Violation} :
    (d.answer (.state a)).1 = .refused violation ↔ d.step a = .error violation := by
  rw [answer_state]
  cases d.step a <;> simp

/-- A refusal leaves the draft as it was. -/
theorem answer_of_refused {d : Draft} {a : Step} {violation : Violation}
    (h : (d.answer (.state a)).1 = .refused violation) : (d.answer (.state a)).2 = d := by
  rw [answer_state, answer_refused_iff.1 h]

theorem answerAll_append (d : Draft) (calls later : List Call) :
    d.answerAll (calls ++ later) =
      ((d.answerAll calls).1 ++ ((d.answerAll calls).2.answerAll later).1,
        ((d.answerAll calls).2.answerAll later).2) := by
  induction calls generalizing d with
  | nil => rfl
  | cons call calls ih => simp only [List.cons_append, answerAll, ih]

/-!
### What has been said

A client knows its calls and the replies to them, and never looks into the draft.
-/

/-- The statements among some calls. -/
def stated (calls : List Call) : List Step :=
  calls.filterMap fun
    | .state a => some a
    | .build => none

/-- The statements among some calls that were accepted, by the replies to the calls. -/
def accepted (calls : List Call) (replies : List Reply) : List Step :=
  (calls.zip replies).filterMap fun
    | (.state a, .accepted) => some a
    | _ => none

theorem stated_cons (call : Call) (calls : List Call) :
    stated (call :: calls) = stated [call] ++ stated calls := by
  rw [stated, ← List.singleton_append, List.filterMap_append]
  rfl

theorem accepted_cons (call : Call) (calls : List Call) (reply : Reply) (replies : List Reply) :
    accepted (call :: calls) (reply :: replies) =
      accepted [call] [reply] ++ accepted calls replies := by
  rw [accepted, List.zip_cons_cons, ← List.singleton_append, List.filterMap_append]
  rfl

/-!
What a statement contributes to each part of a signature. The type of a captured variable comes with
the name, and an absent result is a result.
-/

@[simp] def Step.required? : Step → Option Slot
  | .required x => some x
  | _ => none

@[simp] def Step.optional? : Step → Option Slot
  | .optional x => some x
  | _ => none

@[simp] def Step.rest? : Step → Slot
  | .rest x => x
  | _ => none

@[simp] def Step.result? : Step → Option Slot
  | .result x => some x
  | _ => none

@[simp] def Step.owner? : Step → Option NamedClass
  | .owner c => some c
  | _ => none

@[simp] def Step.capture? : Step → Option (String × Slot)
  | .capture name x => some (name, x)
  | _ => none

@[simp] def Step.isLoose : Step → Bool
  | .loose => true
  | _ => false

/-- How a statement breaks a rule, in view of the statements that were accepted before it. That a
    rest formal comes second is held against it only if it has a type. -/
inductive Step.Breaks (accepted : List Step) : Step → Violation → Prop where
  | requiredAfterOptional {x y : Slot} (before : .optional y ∈ accepted) :
      Breaks accepted (.required x) .requiredTooLate
  | requiredAfterRest {x y : Slot} (before : .rest y ∈ accepted) :
      Breaks accepted (.required x) .requiredTooLate
  | optionalAfterRest {x y : Slot} (before : .rest y ∈ accepted) :
      Breaks accepted (.optional x) .optionalTooLate
  | absentRest : Breaks accepted (.rest none) .absentRest
  | secondRest {t : Ty} {y : Slot} (before : .rest y ∈ accepted) :
      Breaks accepted (.rest (some t)) .secondRest
  | secondResult {x y : Slot} (before : .result y ∈ accepted) :
      Breaks accepted (.result x) .secondResult

/-- Only statements about formals and the result break a rule. -/
theorem Step.Breaks.of_formal_or_result {accepted : List Step} {a : Step} {violation : Violation}
    (h : a.Breaks accepted violation) :
    a.owner? = none ∧ a.capture? = none ∧ a.isLoose = false := by
  cases h <;> exact ⟨rfl, rfl, rfl⟩

/-- The draft that was spelled out: its formals and its result as far as they were accepted, and
    everything else as it was stated. -/
def recorded (stated accepted : List Step) : Draft where
  required := accepted.filterMap Step.required?
  optional := accepted.filterMap Step.optional?
  rest := accepted.findSome? Step.rest?
  result := accepted.findSome? Step.result?
  owner := (stated.filterMap Step.owner?).getLast?
  captures := Bindings.ofList (stated.filterMap Step.capture?)
  loose := stated.any Step.isLoose

/-- The draft with one more statement on it, made without a look at the rules. -/
def adding (d : Draft) (a : Step) : Draft where
  required := d.required ++ a.required?.toList
  optional := d.optional ++ a.optional?.toList
  rest := d.rest.or a.rest?
  result := d.result.or a.result?
  owner := a.owner?.or d.owner
  captures := a.capture?.elim d.captures fun pair => d.captures.insert pair.1 pair.2
  loose := d.loose || a.isLoose

theorem recorded_concat (stated accepted : List Step) (a : Step) :
    recorded (stated ++ [a]) (accepted ++ [a]) = (recorded stated accepted).adding a := by
  have captures : Bindings.ofList ((stated ++ [a]).filterMap Step.capture?) =
      a.capture?.elim (Bindings.ofList (stated.filterMap Step.capture?)) fun pair =>
        (Bindings.ofList (stated.filterMap Step.capture?)).insert pair.1 pair.2 := by
    rw [List.filterMap_append, Bindings.ofList, List.foldl_append]
    cases a <;> rfl
  rw [recorded, captures]
  cases a <;> simp [recorded, adding]

/-- Where the rules admit a statement, the draft becomes what it is with that statement on it. -/
theorem eq_adding_of_step {d next : Draft} {a : Step} (made : d.step a = .ok next) :
    next = d.adding a := by
  rw [adding]
  cases a with
  | required x =>
      obtain ⟨-, rfl⟩ := ite_eq_ok.1 made
      simp
  | optional x =>
      obtain ⟨-, rfl⟩ := ite_eq_ok.1 made
      simp
  | rest x =>
      cases x with
      | none => cases made
      | some t =>
          obtain ⟨first, rfl⟩ := ite_eq_ok.1 made
          rw [Option.isNone_iff_eq_none.1 first]
          simp
  | result x =>
      obtain ⟨first, rfl⟩ := ite_eq_ok.1 made
      rw [Option.isNone_iff_eq_none.1 first]
      simp
  | owner c =>
      obtain rfl := Except.ok.inj made
      simp
  | capture name x =>
      obtain rfl := Except.ok.inj made
      simp
  | loose =>
      obtain rfl := Except.ok.inj made
      simp

/-!
### Following the record
-/

/-- The draft is what was said of it, and every accepted rest formal has a type. -/
structure Follows (d : Draft) (stated accepted : List Step) : Prop where
  eq : d = recorded stated accepted
  typed : ∀ x, .rest x ∈ accepted → x.isSome

variable {d next : Draft} {stated accepted : List Step} {a : Step} {violation : Violation}

theorem Follows.start : Follows {} [] [] :=
  ⟨rfl, fun _ member => nomatch member⟩

namespace Follows

theorem optional_ne_nil_iff (h : d.Follows stated accepted) :
    d.optional ≠ [] ↔ ∃ y, .optional y ∈ accepted := by
  rw [h.eq]
  constructor
  · intro more
    obtain ⟨x, member⟩ := List.exists_mem_of_ne_nil _ more
    obtain ⟨b, before, eq⟩ := List.mem_filterMap.1 member
    cases b with
    | optional y => exact ⟨y, before⟩
    | _ => cases eq
  · rintro ⟨y, before⟩
    exact List.ne_nil_of_mem (List.mem_filterMap.2 ⟨_, before, rfl⟩)

theorem rest_isSome_iff (h : d.Follows stated accepted) :
    d.rest.isSome ↔ ∃ y, .rest y ∈ accepted := by
  rw [h.eq, recorded, List.findSome?_isSome_iff]
  constructor
  · rintro ⟨b, before, found⟩
    cases b with
    | rest y => exact ⟨y, before⟩
    | _ => cases found
  · rintro ⟨y, before⟩
    exact ⟨_, before, h.typed y before⟩

theorem result_isSome_iff (h : d.Follows stated accepted) :
    d.result.isSome ↔ ∃ y, .result y ∈ accepted := by
  rw [h.eq, recorded, List.findSome?_isSome_iff]
  constructor
  · rintro ⟨b, before, found⟩
    cases b with
    | result y => exact ⟨y, before⟩
    | _ => cases found
  · rintro ⟨y, before⟩
    exact ⟨_, before, rfl⟩

/-- The accepted statements decide which violation the next statement commits, if any. -/
theorem step_eq_error_iff (h : d.Follows stated accepted) :
    d.step a = .error violation ↔ a.Breaks accepted violation := by
  cases a with
  | required x =>
      rw [step, ite_eq_error, Bool.not_eq_true, Bool.and_eq_false_iff, List.isEmpty_eq_false_iff,
        Option.isNone_eq_false_iff, h.optional_ne_nil_iff, h.rest_isSome_iff]
      constructor
      · rintro ⟨⟨y, before⟩ | ⟨y, before⟩, rfl⟩
        · exact .requiredAfterOptional before
        · exact .requiredAfterRest before
      · intro breaks
        cases breaks with
        | requiredAfterOptional before => exact ⟨.inl ⟨_, before⟩, rfl⟩
        | requiredAfterRest before => exact ⟨.inr ⟨_, before⟩, rfl⟩
  | optional x =>
      rw [step, ite_eq_error, Bool.not_eq_true, Option.isNone_eq_false_iff, h.rest_isSome_iff]
      constructor
      · rintro ⟨⟨y, before⟩, rfl⟩
        exact .optionalAfterRest before
      · intro breaks
        cases breaks with
        | optionalAfterRest before => exact ⟨⟨_, before⟩, rfl⟩
  | rest x =>
      cases x with
      | none =>
          constructor
          · rintro ⟨⟩
            exact .absentRest
          · rintro ⟨⟩
            rfl
      | some t =>
          rw [step, Option.isNone_some, if_neg Bool.false_ne_true, ite_eq_error, Bool.not_eq_true,
            Option.isNone_eq_false_iff, h.rest_isSome_iff]
          constructor
          · rintro ⟨⟨y, before⟩, rfl⟩
            exact .secondRest before
          · intro breaks
            cases breaks with
            | secondRest before => exact ⟨⟨_, before⟩, rfl⟩
  | result x =>
      rw [step, ite_eq_error, Bool.not_eq_true, Option.isNone_eq_false_iff, h.result_isSome_iff]
      constructor
      · rintro ⟨⟨y, before⟩, rfl⟩
        exact .secondResult before
      · intro breaks
        cases breaks with
        | secondResult before => exact ⟨⟨_, before⟩, rfl⟩
  | owner c => exact ⟨nofun, nofun⟩
  | capture name x => exact ⟨nofun, nofun⟩
  | loose => exact ⟨nofun, nofun⟩

/-- A statement that is accepted goes on the record of everything that was said. -/
theorem accept (h : d.Follows stated accepted) (made : d.step a = .ok next) :
    next.Follows (stated ++ [a]) (accepted ++ [a]) := by
  constructor
  · rw [recorded_concat, ← h.eq]
    exact eq_adding_of_step made
  · intro x member
    rcases List.mem_append.1 member with before | last
    · exact h.typed x before
    · obtain rfl := List.mem_singleton.1 last
      cases x with
      | none => cases made
      | some t => rfl

/-- A statement that is refused adds nothing to the record. -/
theorem refuse (h : d.Follows stated accepted) (refused : d.step a = .error violation) :
    d.Follows (stated ++ [a]) accepted := by
  obtain ⟨owner, capture, loose⟩ := (h.step_eq_error_iff.1 refused).of_formal_or_result
  refine ⟨?_, h.typed⟩
  rw [h.eq, recorded, recorded, List.filterMap_append, List.filterMap_cons_none owner,
    List.filterMap_append, List.filterMap_cons_none capture, List.any_append, List.any_cons, loose]
  simp

/-- One call keeps to the record. -/
theorem answer (h : d.Follows stated accepted) (call : Call) :
    (d.answer call).2.Follows (stated ++ Draft.stated [call])
      (accepted ++ Draft.accepted [call] [(d.answer call).1]) := by
  cases call with
  | build =>
      have nothing : Draft.stated [.build] = [] := rfl
      have accepts : Draft.accepted [.build] [.built d.build] = [] := rfl
      rw [Draft.answer, nothing, accepts, List.append_nil, List.append_nil]
      exact h
  | state a =>
      rw [answer_state]
      cases made : d.step a with
      | ok next => exact h.accept made
      | error violation =>
          have accepts : Draft.accepted [.state a] [.refused violation] = [] := rfl
          rw [accepts, List.append_nil]
          exact h.refuse made

/-- A run of calls keeps to the record. -/
theorem answerAll (h : d.Follows stated accepted) (calls : List Call) :
    (d.answerAll calls).2.Follows (stated ++ Draft.stated calls)
      (accepted ++ Draft.accepted calls (d.answerAll calls).1) := by
  induction calls generalizing d stated accepted with
  | nil =>
      have accepts : Draft.accepted [] [] = [] := rfl
      rw [Draft.answerAll, accepts, List.append_nil]
      exact (List.append_nil stated).symm ▸ h
  | cons call calls ih =>
      have rest := ih (h.answer call)
      rwa [List.append_assoc, List.append_assoc, ← stated_cons, ← accepted_cons] at rest

end Follows

/-!
### Runs of statements
-/

theorem attempt_eq (d : Draft) (a : Step) :
    d.attempt a = if (d.step a).isOk then d.adding a else d := by
  rw [attempt]
  cases made : d.step a with
  | ok next => exact eq_adding_of_step made
  | error violation => rfl

theorem answer_snd (d : Draft) (a : Step) : (d.answer (.state a)).2 = d.attempt a := by
  rw [answer_state, attempt]
  cases d.step a <;> rfl

/-- The draft after a run of calls is the draft after their statements. -/
theorem answerAll_snd (d : Draft) (calls : List Call) :
    (d.answerAll calls).2 = (Draft.stated calls).foldl attempt d := by
  induction calls generalizing d with
  | nil => rfl
  | cons call calls ih =>
      cases call with
      | build => exact ih d
      | state a =>
          calc (d.answerAll (.state a :: calls)).2
              = ((d.answer (.state a)).2.answerAll calls).2 := rfl
            _ = (Draft.stated calls).foldl attempt (d.answer (.state a)).2 := ih _
            _ = (Draft.stated calls).foldl attempt (d.attempt a) := by rw [answer_snd]

end Draft

end SignatureLattice
