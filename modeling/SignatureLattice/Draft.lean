/-
Module: SignatureLattice.Draft
Purpose: Signatures under construction. A draft grows by steps, of which the formals have to come in
  the order of the finished signature; a step out of order fails and leaves the draft as it was. At
  any time the draft can be read as a normalized shape.
Main exports: Draft, Draft.Step, Draft.step, Draft.accept, Draft.compose, Draft.attempt,
  Draft.run, Draft.build
-/
import SignatureLattice.Signature

namespace SignatureLattice

/-- What has been said of a signature under construction. A result that was given may itself be
    absent. -/
structure Draft where
  required : List Slot := []
  optional : List Slot := []
  rest : Slot := none
  result : Option Slot := none
  owner : Option NamedClass := none
  captures : Bindings Slot := []
  loose : Bool := false

namespace Draft

/-- One statement about a signature under construction. -/
inductive Step where
  | required (x : Slot)
  | optional (x : Slot)
  | rest (x : Slot)
  | result (x : Slot)
  | owner (c : NamedClass)
  | capture (name : String) (x : Slot)
  | loose

/-- Adds a statement to a draft. Formals come in the order required, optional, rest; the rest formal
    and the result come once, and the rest formal must have a type. The last owner counts, and so
    does the last type of a captured variable. -/
def step (d : Draft) : Step → Except Violation Draft
  | .required x =>
      if d.optional.isEmpty && d.rest.isNone then .ok { d with required := d.required ++ [x] }
      else .error .requiredTooLate
  | .optional x =>
      if d.rest.isNone then .ok { d with optional := d.optional ++ [x] }
      else .error .optionalTooLate
  | .rest x =>
      if x.isNone then .error .absentRest
      else if d.rest.isNone then .ok { d with rest := x }
      else .error .secondRest
  | .result x =>
      if d.result.isNone then .ok { d with result := some x }
      else .error .secondResult
  | .owner c => .ok { d with owner := some c }
  | .capture name x => .ok { d with captures := d.captures.insert name x }
  | .loose => .ok { d with loose := true }

/-- Adds statements to a draft, of which none may fail. -/
def accept (d : Draft) (steps : List Step) : Except Violation Draft :=
  steps.foldlM step d

/-- Adds a statement about each of some positions, once it is worked out what goes there. -/
def acceptEach (d : Draft) (state : Slot → Step) (slot : Nat → Except Violation Slot)
    (positions : List Nat) : Except Violation Draft :=
  positions.foldlM (fun d i => slot i >>= fun x => d.step (state x)) d

/-- The draft of a signature of which the parts are worked out one after the other, each before it
    is stated. The first `count` of `n` formals are required. -/
def compose (count n : Nat) (formal : Nat → Except Violation Slot)
    (rest : Option (Except Violation Slot)) (result : Except Violation Slot) (loose : Bool) :
    Except Violation Draft := do
  let d ← acceptEach {} .required formal (List.range count)
  let d ← d.acceptEach .optional formal (List.range' count (n - count))
  let d ← rest.elim (.ok d) fun rest => rest >>= fun x => d.step (.rest x)
  let d ← result >>= fun x => d.step (.result x)
  d.accept (if loose then [.loose] else [])

/-- Adds a statement to a draft, or leaves the draft as it is if the statement fails. -/
def attempt (d : Draft) (step : Step) : Draft :=
  match d.step step with
  | .ok next => next
  | .error _ => d

/-- The draft after a sequence of statements of which the failing ones are skipped. -/
def run (steps : List Step) : Draft :=
  steps.foldl attempt {}

/-- The shape that the draft describes so far. -/
def build (d : Draft) : Shape :=
  Shape.normalized {
    required := d.required
    optional := d.optional
    rest := d.rest
    result := d.result.join
    owner := d.owner
    captures := d.captures
    loose := d.loose }

end Draft

end SignatureLattice
