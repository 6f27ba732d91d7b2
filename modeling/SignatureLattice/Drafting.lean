/-
Module: SignatureLattice.Drafting
Purpose: Drafts in use. A client makes statements about a draft and has its shape built, in any
  order and as often as it likes, and all of this happens to one draft in place. A statement that
  breaks a rule is reported, and the client goes on with what the failed edit has left of the draft.
Main exports: Draft.Edit, Draft.Step.edit, Draft.Call, Draft.Reply, Draft.answer, Draft.answerAll
-/
import SignatureLattice.Draft

namespace SignatureLattice.Draft

/-- An edit of a draft in place. What it has changed before it fails stays changed. -/
abbrev Edit := EStateM Violation Draft

/-- Fails unless a rule is kept. -/
def Edit.require (kept : Bool) (violation : Violation) : Edit Unit :=
  if kept then pure () else throw violation

/-- Makes a statement in place. -/
def Step.edit : Step → Edit Unit
  | .required x => do
      let d ← get
      Edit.require (d.optional.isEmpty && d.rest.isNone) .requiredTooLate
      set { d with required := d.required ++ [x] }
  | .optional x => do
      let d ← get
      Edit.require d.rest.isNone .optionalTooLate
      set { d with optional := d.optional ++ [x] }
  | .rest x => do
      Edit.require x.isSome .absentRest
      let d ← get
      Edit.require d.rest.isNone .secondRest
      set { d with rest := x }
  | .result x => do
      let d ← get
      Edit.require d.result.isNone .secondResult
      set { d with result := some x }
  | .owner c => modify fun d => { d with owner := some c }
  | .capture name x => modify fun d => { d with captures := d.captures.insert name x }
  | .loose => modify fun d => { d with loose := true }

/-- What a client asks of a draft: to take up a statement, or to be read as a shape. -/
inductive Call where
  | state (a : Step)
  | build

/-- What comes of a call. -/
inductive Reply where
  | accepted
  | refused (violation : Violation)
  | built (s : Shape)

/-- Answers a call. After a statement that fails the draft is as the failed edit has left it. -/
def answer (d : Draft) : Call → Reply × Draft
  | .state a =>
      match a.edit.run d with
      | .ok () next => (.accepted, next)
      | .error violation left => (.refused violation, left)
  | .build => (.built d.build, d)

/-- Answers one call after the other. -/
def answerAll (d : Draft) : List Call → List Reply × Draft
  | [] => ([], d)
  | call :: calls =>
      let (reply, next) := d.answer call
      let (replies, last) := next.answerAll calls
      (reply :: replies, last)

end SignatureLattice.Draft
