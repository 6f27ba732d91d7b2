/-
Module: SignatureLattice.Operation
Purpose: The operations that the library offers on types and signatures, as data. The two bounds
  are computed by one algebra that is told which of them is wanted. The five signature operations
  are what a checker asks for by name.
Main exports: Bound, Bound.dual, Bound.pick, Operation, Operation.label
-/

namespace SignatureLattice

/-- The two bounds of a lattice: `join` is the least upper bound, `meet` the greatest lower one. -/
inductive Bound where
  | join
  | meet
deriving DecidableEq, Repr, Inhabited

namespace Bound

/-- Formals are contravariant: where a signature takes one bound, its formals take the other. -/
def dual : Bound → Bound
  | .join => .meet
  | .meet => .join

/-- Chooses between the value for the upper bound and the value for the lower one. -/
def pick {α : Type} (bound : Bound) (upper lower : α) : α :=
  match bound with
  | .join => upper
  | .meet => lower

def word : Bound → String
  | .join => "join"
  | .meet => "meet"

@[simp] theorem dual_dual (bound : Bound) : bound.dual.dual = bound := by
  cases bound <;> rfl

end Bound

/-- The binary operations on signatures. -/
inductive Operation where
  | join
  | meet
  | specialize
  | subtype
  | compatible
deriving DecidableEq, Repr, Inhabited

/-- The name of an operation in trace records. -/
def Operation.label : Operation → String
  | .join => "join"
  | .meet => "meet"
  | .specialize => "specialize"
  | .subtype => "subtype"
  | .compatible => "loose-subtype"

end SignatureLattice
