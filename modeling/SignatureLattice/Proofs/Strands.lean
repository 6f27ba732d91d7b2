/-
Module: SignatureLattice.Proofs.Strands
Purpose: A draft is made of strands that do not touch one another: its formals, its result, its
  owner, each captured variable and its looseness. What is said on one strand neither depends on
  what is said on another one nor changes it, so that statements on different strands can be made in
  any order. With what acceptance says of each strand, this settles what a client of a draft can
  see.
Main exports: Bindings.lookup_ofList, Bindings.ext_of_sorted, Draft.Strand, Draft.Reordered,
  Draft.Shows, Draft.Reordered.run_eq, draft_determined
-/
import Mathlib.Data.List.Induction
import Mathlib.Data.List.Sort
import SignatureLattice.Proofs.Acceptance

namespace SignatureLattice

open Outcome

/-!
### Captured variables
-/

namespace Bindings

variable {α : Type}

theorem mem_of_lookup {bindings : Bindings α} {name : String} {value : α}
    (h : bindings.lookup name = some value) : (name, value) ∈ bindings := by
  induction bindings with
  | nil => cases h
  | cons pair rest ih =>
      obtain ⟨key, held⟩ := pair
      rw [lookup_cons] at h
      split at h
      · rename_i here
        obtain rfl := Option.some.inj h
        exact here ▸ List.mem_cons_self
      · exact List.mem_cons_of_mem _ (ih h)

theorem lookup_of_mem {bindings : Bindings α} (sorted : bindings.Sorted) {name : String}
    {value : α} (h : (name, value) ∈ bindings) : bindings.lookup name = some value := by
  induction bindings with
  | nil => cases h
  | cons pair rest ih =>
      obtain ⟨key, held⟩ := pair
      rw [lookup_cons]
      rcases List.mem_cons.1 h with eq | later
      · obtain ⟨rfl, rfl⟩ := Prod.mk.inj eq
        exact if_pos rfl
      · have before : key < name := (List.pairwise_cons.1 sorted).1 _ later
        have different : name ≠ key := fun same => String.lt_irrefl key (same ▸ before)
        rw [if_neg different]
        exact ih (List.pairwise_cons.1 sorted).2 later

/-- A name is bound to what the last pair with that name says. -/
theorem lookup_ofList (pairs : List (String × α)) (name : String) :
    (ofList pairs).lookup name = pairs.reverse.lookup name := by
  induction pairs using List.reverseRecOn with
  | nil => rfl
  | append_singleton pairs pair ih =>
      rw [ofList, List.foldl_append, ← ofList, List.reverse_append]
      exact (lookup_insert ..).trans (ih ▸ (lookup_cons ..).symm)

/-- Sorted bindings are determined by what each name is bound to. -/
theorem ext_of_sorted {a b : Bindings α} (ha : a.Sorted) (hb : b.Sorted)
    (h : ∀ name, a.lookup name = b.lookup name) : a = b := by
  have irrefl : Std.Irrefl fun pair next : String × α => pair.1 < next.1 :=
    ⟨fun pair => String.lt_irrefl pair.1⟩
  apply List.Pairwise.eq_of_mem_iff ha hb
  rintro ⟨name, value⟩
  constructor
  · exact fun member => mem_of_lookup (h name ▸ lookup_of_mem ha member)
  · exact fun member => mem_of_lookup (h name ▸ lookup_of_mem hb member)

end Bindings

namespace Draft

attribute [ext] Draft

/-!
### Strands

What is said on one strand of a draft neither depends on what is said on another strand nor changes
it.
-/

/-- The strands of a draft. The formals are one strand, since they come in an order. -/
inductive Strand where
  | formals
  | result
  | owner
  | capture (name : String)
  | loose
deriving DecidableEq, Repr, Inhabited

/-- The strand that a statement is about. -/
def Step.strand : Step → Strand
  | .required _ => .formals
  | .optional _ => .formals
  | .rest _ => .formals
  | .result _ => .result
  | .owner _ => .owner
  | .capture name _ => .capture name
  | .loose => .loose

/-- Two lists of statements are reorderings of one another if they say the same on each strand. -/
def Reordered (l m : List Step) : Prop :=
  ∀ strand, l.filter (·.strand = strand) = m.filter (·.strand = strand)

/-- The part of a draft that the formals stand on. -/
def formals (d : Draft) : List Slot × List Slot × Slot :=
  (d.required, d.optional, d.rest)

theorem formals_eq_iff {d e : Draft} :
    d.formals = e.formals ↔
      d.required = e.required ∧ d.optional = e.optional ∧ d.rest = e.rest := by
  simp [formals]

theorem sorted_captures (steps : List Step) : (run steps).captures.Sorted := by
  suffices start : ∀ d : Draft, d.captures.Sorted → (steps.foldl attempt d).captures.Sorted from
    start {} List.Pairwise.nil
  induction steps with
  | nil => exact fun _ h => h
  | cons a steps ih =>
      intro d h
      apply ih
      rw [attempt_eq]
      split
      · cases a with
        | capture name x => exact Bindings.sorted_insert h name x
        | _ => exact h
      · exact h

/-- A view of a draft that shows one strand and nothing else: statements about other strands leave
    it alone, and whether a statement about this strand is accepted, and what it then adds, can be
    told from the view. -/
structure Shows {β : Type} (view : Draft → β) (strand : Strand) : Prop where
  frame : ∀ d a, a.strand ≠ strand → view (d.adding a) = view d
  accepts : ∀ d e a, a.strand = strand → view d = view e → (d.step a).isOk = (e.step a).isOk
  adds : ∀ d e a, a.strand = strand → view d = view e → view (d.adding a) = view (e.adding a)

theorem shows_formals : Shows formals .formals where
  frame := by
    intro d a other
    cases a with
    | required x => exact absurd rfl other
    | optional x => exact absurd rfl other
    | rest x => exact absurd rfl other
    | _ => simp [formals, adding]
  accepts := by
    intro d e a here same
    obtain ⟨-, optional, rest⟩ := formals_eq_iff.1 same
    cases a with
    | required x => rw [step, step, isOk_ite, isOk_ite, optional, rest]
    | optional x => rw [step, step, isOk_ite, isOk_ite, rest]
    | rest x =>
        cases x with
        | none => rfl
        | some t =>
            rw [step, step, Option.isNone_some, if_neg Bool.false_ne_true,
              if_neg Bool.false_ne_true, isOk_ite, isOk_ite, rest]
    | _ => cases here
  adds := by
    intro d e a here same
    obtain ⟨required, optional, rest⟩ := formals_eq_iff.1 same
    simp [formals, adding, required, optional, rest]

theorem shows_result : Shows Draft.result .result where
  frame := by
    intro d a other
    cases a with
    | result x => exact absurd rfl other
    | _ => simp [adding]
  accepts := by
    intro d e a here same
    cases a with
    | result x => rw [step, step, isOk_ite, isOk_ite, same]
    | _ => cases here
  adds := by
    intro d e a here same
    simp [adding, same]

theorem shows_owner : Shows Draft.owner .owner where
  frame := by
    intro d a other
    cases a with
    | owner c => exact absurd rfl other
    | _ => simp [adding]
  accepts := by
    intro d e a here same
    cases a with
    | owner c => rfl
    | _ => cases here
  adds := by
    intro d e a here same
    simp [adding, same]

theorem shows_loose : Shows Draft.loose .loose where
  frame := by
    intro d a other
    cases a with
    | loose => exact absurd rfl other
    | _ => simp [adding]
  accepts := by
    intro d e a here same
    cases a with
    | loose => rfl
    | _ => cases here
  adds := by
    intro d e a here same
    simp [adding, same]

theorem shows_capture (name : String) :
    Shows (fun d => d.captures.lookup name) (.capture name) where
  frame := by
    intro d a other
    cases a with
    | capture key x =>
        have different : name ≠ key := fun same => other (congrArg Strand.capture same.symm)
        exact (Bindings.lookup_insert ..).trans (if_neg different)
    | _ => rfl
  accepts := by
    intro d e a here same
    cases a with
    | capture key x => rfl
    | _ => cases here
  adds := by
    intro d e a here same
    cases a with
    | capture key x =>
        obtain rfl := Strand.capture.inj here
        simp [adding, Bindings.lookup_insert]
    | _ => cases here

/-- The view of a run does not miss the statements about other strands. -/
theorem Shows.foldl {β : Type} {view : Draft → β} {strand : Strand} (shows : Shows view strand)
    (steps : List Step) {d e : Draft} (same : view d = view e) :
    view (steps.foldl attempt d) =
      view ((steps.filter (·.strand = strand)).foldl attempt e) := by
  induction steps generalizing d e with
  | nil => exact same
  | cons a steps ih =>
      by_cases here : a.strand = strand
      · simp only [List.filter_cons, here, decide_true, if_true]
        apply ih
        rw [attempt_eq, attempt_eq, shows.accepts d e a here same]
        split
        · exact shows.adds d e a here same
        · exact same
      · simp only [List.filter_cons, here, decide_false, Bool.false_eq_true, if_false]
        apply ih
        rw [attempt_eq]
        split
        · exact (shows.frame d a here).trans same
        · exact same

namespace Reordered

variable {l m : List Step}

/-- Neighbours on different strands can change places. -/
theorem swap {a b : Step} (different : a.strand ≠ b.strand) (l m : List Step) :
    Reordered (l ++ a :: b :: m) (l ++ b :: a :: m) := by
  intro strand
  by_cases first : a.strand = strand
  · have second : b.strand ≠ strand := fun same => different (first.trans same.symm)
    simp [first, second]
  · simp [List.filter_cons, first]

/-- A view of one strand does not tell reorderings apart. -/
theorem view_run {β : Type} {view : Draft → β} {strand : Strand} (shows : Shows view strand)
    (h : Reordered l m) : view (run l) = view (run m) := by
  calc view (run l)
      = view (run (l.filter (·.strand = strand))) := shows.foldl l rfl
    _ = view (run (m.filter (·.strand = strand))) := by rw [h strand]
    _ = view (run m) := (shows.foldl m rfl).symm

/-- Reorderings make the same draft. -/
theorem run_eq (h : Reordered l m) : run l = run m := by
  obtain ⟨required, optional, rest⟩ := formals_eq_iff.1 (view_run shows_formals h)
  have captures : (run l).captures = (run m).captures :=
    Bindings.ext_of_sorted (sorted_captures l) (sorted_captures m) fun name =>
      view_run (shows_capture name) h
  exact Draft.ext required optional rest (view_run shows_result h) (view_run shows_owner h) captures
    (view_run shows_loose h)

end Reordered

end Draft

/-!
### Main theorem
-/

/-- A draft is determined by what was accepted. After any calls, statements and readings, the next
    statement is refused just when it breaks a rule in view of the accepted statements, and then the
    draft stays as it is. The shape that is built is the normal form of the accepted formals and the
    accepted result, the last owner, the last type of each captured variable, and looseness if it
    was stated. To build it changes no later reply, and statements on different strands may come in
    any order. -/
theorem draft_determined (calls : List Draft.Call) :
    let replies := (Draft.answerAll {} calls).1
    let d := (Draft.answerAll {} calls).2
    let stated := Draft.stated calls
    let accepted := Draft.accepted calls replies
    let captures := Bindings.ofList (stated.filterMap Draft.Step.capture?)
    let built := Shape.normalized {
      required := accepted.filterMap Draft.Step.required?
      optional := accepted.filterMap Draft.Step.optional?
      rest := accepted.findSome? Draft.Step.rest?
      result := (accepted.findSome? Draft.Step.result?).join
      owner := (stated.filterMap Draft.Step.owner?).getLast?
      captures
      loose := stated.any Draft.Step.isLoose }
    d = Draft.run stated ∧
    (∀ a violation,
      (d.answer (.state a)).1 = .refused violation ↔ a.Breaks accepted violation) ∧
    (∀ a violation, (d.answer (.state a)).1 = .refused violation →
      (d.answer (.state a)).2 = d) ∧
    d.answer .build = (.built built, d) ∧
    (captures.Sorted ∧ ∀ name,
      captures.lookup name = (stated.filterMap Draft.Step.capture?).reverse.lookup name) ∧
    (∀ later,
      Draft.answerAll {} (calls ++ later) =
        (replies ++ (d.answerAll later).1, (d.answerAll later).2) ∧
      Draft.answerAll {} (calls ++ .build :: later) =
        (replies ++ .built built :: (d.answerAll later).1, (d.answerAll later).2)) ∧
    ∀ other, Draft.Reordered stated (Draft.stated other) →
      (Draft.answerAll {} other).2 = d := by
  intro replies d stated accepted captures built
  have follows : d.Follows stated accepted := Draft.Follows.start.answerAll calls
  have shown : d.answer .build = (.built built, d) := by
    have build_eq : d.build = built := by
      rw [follows.eq]
      rfl
    rw [Draft.answer, build_eq]
  refine ⟨Draft.answerAll_snd {} calls, fun a violation => ?_, fun a violation => ?_, shown,
    ⟨Bindings.sorted_ofList _, Bindings.lookup_ofList _⟩, fun later => ⟨?_, ?_⟩,
    fun other reordered => ?_⟩
  · exact Draft.answer_refused_iff.trans follows.step_eq_error_iff
  · exact Draft.answer_of_refused
  · exact Draft.answerAll_append {} calls later
  · rw [Draft.answerAll_append, Draft.answerAll, shown]
  · calc (Draft.answerAll {} other).2
        = Draft.run (Draft.stated other) := Draft.answerAll_snd {} other
      _ = Draft.run stated := reordered.run_eq.symm
      _ = d := (Draft.answerAll_snd {} calls).symm

/-- The theorem at a draft with refusals of three kinds and a shape that is built half-way. The
    first two statements come in either order, and in the end the rest formal makes the optional one
    redundant. -/
theorem draft_determined_interleaved :
    let number : Slot := some (.ofPrimitives { number := true })
    let calls : List Draft.Call :=
      [.state (.optional number), .state (.result none), .build, .state (.required number),
        .state (.result number), .state (.rest none), .state (.rest number)]
    let other : List Draft.Call :=
      [.state (.result none), .build, .state (.optional number), .state (.required number),
        .state (.result number), .state (.rest none), .state (.rest number)]
    Draft.Reordered (Draft.stated calls) (Draft.stated other) ∧
      (Draft.answerAll {} calls).1 =
        [.accepted, .accepted, .built { optional := [number] }, .refused .requiredTooLate,
          .refused .secondResult, .refused .absentRest, .accepted] ∧
      ((Draft.answerAll {} other).2.answer .build).1 = .built { rest := number } := by
  intro number calls other
  have reordered : Draft.Reordered (Draft.stated calls) (Draft.stated other) :=
    Draft.Reordered.swap (by decide) [] _
  obtain ⟨-, -, -, shown, -, -, order⟩ := draft_determined calls
  refine ⟨reordered, rfl, ?_⟩
  rw [order other reordered, shown]
  rfl

end SignatureLattice
