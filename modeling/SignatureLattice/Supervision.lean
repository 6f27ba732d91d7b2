/-
Module: SignatureLattice.Supervision
Purpose: The operations on signatures under supervision: operands and results may be checked for
  validity, and a record of every completed operation may be kept. A request that fails leaves no
  record.
Main exports: Answer, Operation.apply, Operation.missesOperand_iff, Supervision, Record, Report,
  Supervision.perform, Call, Supervision.serve, Supervision.serveAll
-/
import SignatureLattice.Rendering
import SignatureLattice.Subtyping

namespace SignatureLattice

/-- What an operation on signatures yields: a signature, which may be absent, or a verdict. -/
inductive Answer where
  | signature (f : Callable)
  | verdict (holds : Bool)

namespace Operation

/-- Whether an operand is absent that the operation cannot do without. -/
def missesOperand (operation : Operation) (f g : Callable) : Bool :=
  match operation with
  | .join | .meet => false
  | .specialize => f.isNone
  | .subtype | .compatible => f.isNone || g.isNone

/-- Carries out an operation. -/
def apply (operation : Operation) (f g : Callable) : Except Violation Answer :=
  match operation, f, g with
  | .join, f, g => .signature <$> Callable.join f g
  | .meet, f, g => .signature <$> Callable.meet f g
  | .specialize, some f, g => .signature <$> f.specialize g
  | .subtype, some f, some g => .verdict <$> f.isSubtypeOf g
  | .compatible, some f, some g => .verdict <$> f.isCompatibleWith g
  | operation, _, _ => .error (.absentSignature operation)

section

variable (f g : Signature) (l r : Callable)

@[simp] theorem apply_join : Operation.join.apply l r = .signature <$> Callable.join l r := rfl

@[simp] theorem apply_meet : Operation.meet.apply l r = .signature <$> Callable.meet l r := rfl

@[simp] theorem apply_specialize :
    Operation.specialize.apply (some f) r = .signature <$> f.specialize r := rfl

@[simp] theorem apply_subtype :
    Operation.subtype.apply (some f) (some g) = .verdict <$> f.isSubtypeOf g := rfl

@[simp] theorem apply_compatible :
    Operation.compatible.apply (some f) (some g) = .verdict <$> f.isCompatibleWith g := rfl

end

/-- The bounds take absent operands, specializing needs a signature to start from, and the two tests
    need both signatures. -/
theorem missesOperand_iff {operation : Operation} {f g : Callable} :
    operation.missesOperand f g = true ↔
      (operation = .specialize ∧ f = none) ∨
        ((operation = .subtype ∨ operation = .compatible) ∧ (f = none ∨ g = none)) := by
  cases operation <;> simp [missesOperand]

/-- An operation that misses an operand is not carried out. -/
theorem apply_of_missesOperand {operation : Operation} {f g : Callable}
    (misses : operation.missesOperand f g = true) :
    operation.apply f g = .error (.absentSignature operation) := by
  rcases missesOperand_iff.1 misses with ⟨rfl, rfl⟩ | ⟨rfl | rfl, rfl | rfl⟩
  · rfl
  · rfl
  · cases f <;> rfl
  · rfl
  · cases f <;> rfl

end Operation

/-- The account of one completed operation. -/
structure Record where
  label : String
  left : String
  right : String
  outcome : String
deriving DecidableEq, Repr, Inhabited

/-- A record as a line of text. -/
def Record.line (r : Record) : String :=
  "[lattice] " ++ r.label ++ " " ++ r.left ++ " | " ++ r.right ++ " -> " ++ r.outcome ++ "\n"

/-- The answer to a request, with the record that was kept of it. -/
structure Report where
  answer : Answer
  record : Option Record

/-- The text of a record that may have been kept. -/
def Record.text (record : Option Record) : String :=
  (record.map Record.line).getD ""

/-- How operations are supervised. -/
structure Supervision where
  trace : Bool := false
  verify : Bool := true
deriving DecidableEq, Repr, Inhabited

/-- The text of an answer in a record. -/
def Answer.render : Answer → String
  | .signature f => Callable.render f
  | .verdict holds => if holds then "true" else "false"

/-- The account of an operation, its operands and its answer. -/
def Record.of (operation : Operation) (f g : Callable) (answer : Answer) : Record where
  label := operation.label
  left := Callable.render f
  right := Callable.render g
  outcome := answer.render

namespace Supervision

/-- Checks a signature that is there, if supervision asks for it. -/
def check (supervision : Supervision) : Callable → Except Violation Unit
  | some f => if supervision.verify then f.validate else .ok ()
  | none => .ok ()

/-- Checks the signature that an operation has yielded. A verdict needs no check. -/
def checkAnswer (supervision : Supervision) : Answer → Except Violation Unit
  | .signature f => supervision.check f
  | .verdict _ => .ok ()

/-- The record that is kept of an operation: the given one if supervision traces, and none if it
    does not. -/
def keep (supervision : Supervision) (r : Record) : Option Record :=
  if supervision.trace then some r else none

/-- Carries out an operation under supervision: operands that must be there are looked for, the
    operands are checked from left to right, and the result is checked before it is recorded. -/
def perform (supervision : Supervision) (operation : Operation) (f g : Callable) :
    Except Violation Report := do
  if operation.missesOperand f g then throw (.absentSignature operation)
  supervision.check f
  supervision.check g
  let answer ← operation.apply f g
  supervision.checkAnswer answer
  return { answer, record := supervision.keep (Record.of operation f g answer) }

end Supervision

/-- A request for an operation on two signatures that may be absent. -/
structure Call where
  operation : Operation
  left : Callable
  right : Callable

namespace Supervision

/-- Answers a call, given the text that is already on the stream, and writes the record that is kept
    of it behind that text. -/
def serve (supervision : Supervision) (stream : String) (call : Call) :
    Except Violation Answer × String :=
  match supervision.perform call.operation call.left call.right with
  | .ok report => (.ok report.answer, stream ++ Record.text report.record)
  | .error violation => (.error violation, stream)

/-- Answers one call after the other. All of them write to the same stream. -/
def serveAll (supervision : Supervision) (stream : String) :
    List Call → List (Except Violation Answer) × String
  | [] => ([], stream)
  | call :: calls =>
      let (answer, stream) := supervision.serve stream call
      let (answers, stream) := supervision.serveAll stream calls
      (answer :: answers, stream)

end Supervision

end SignatureLattice
