/-
Module: SignatureLattice.Algebra
Purpose: The least upper and greatest lower bounds of value types and of signatures. The two
  algebras need one another, because a type has a callable part and a signature has formals and a
  result; both bounds run through one recursion that is told which bound is wanted. Formals are
  contravariant, so where signatures take one bound their formals take the other. As soon as one
  signature is loose, variance is given up: formals and results are joined, whichever bound was
  asked for. What is merged is stated to a draft, which may refuse it like any other draft.
Main exports: MergeRule, Ty.combine, Callable.combine, Signature.combine, Shape.merge,
  Slot.join, Slot.meet, Callable.join, Callable.meet, Signature.specialize
-/
import SignatureLattice.Draft

namespace SignatureLattice

/-- How two shapes are merged: towards a bound if both are precise, or as approximations. -/
inductive MergeRule where
  | precise (bound : Bound)
  | loose
deriving DecidableEq, Repr, Inhabited

namespace MergeRule

/-- The rule for two shapes: a loose one makes the result loose. -/
def of (bound : Bound) (s t : Shape) : MergeRule :=
  if s.loose || t.loose then .loose else .precise bound

/-- The bound that the formals take. -/
def formals : MergeRule → Bound
  | .precise bound => bound.dual
  | .loose => .join

/-- The number of required formals of the result. An upper bound may only be called as both
    operands may be; every other result asks for no more than either operand does. -/
def requiredCount (rule : MergeRule) (m n : Nat) : Nat :=
  match rule with
  | .precise .join => max m n
  | .precise .meet => min m n
  | .loose => min m n

/-- What a merge takes for granted: only a loose shape makes two shapes approximations. -/
def check (rule : MergeRule) (s t : Shape) : Except Violation Unit :=
  match rule with
  | .precise _ => .ok ()
  | .loose => if s.loose || t.loose then .ok () else .error .neitherLoose

end MergeRule

/-- The operand that is the bound of two shapes already: equal shapes have the left one as both
    bounds, and a shape that equals the least one gives way in an upper bound. -/
def Shape.dominant? (bound : Bound) (s t : Shape) : Option Shape :=
  match bound with
  | .join =>
      if t.isBottom || s.same t then some s
      else if s.isBottom then some t
      else none
  | .meet => if s.same t then some s else none

/-- What a merge demands of its operands: if there is a position to merge then both have to be
    valid, and the right one is checked first. -/
def Shape.validateForMerge (s t : Shape) : Except Violation Unit :=
  if max s.span t.span = 0 then .ok ()
  else do
    t.validate
    s.validate

/-- The type in a slot, or the given violation if there is none. -/
def Slot.require (violation : Violation) : Slot → Except Violation Ty
  | some t => .ok t
  | none => .error violation

/-- Lets a slot pass that holds a type. -/
def Slot.checked (violation : Violation) (x : Slot) : Except Violation Slot :=
  if x.isNone then .error violation else .ok x

mutual

/-- A bound of two types. The top type is above the unknown type, which is above every union; unions
    are bounded part by part. -/
def Ty.combine (bound : Bound) (a b : Ty) : Except Violation Ty :=
  match a, b with
  | .union p c f, .union q d g => do
      let callable ← Callable.combine bound f g
      return .union (bound.pick (p.union q) (p.inter q)) (bound.pick (c.union d) (c.inter d))
        callable
  | .top, x => .ok (bound.pick .top x)
  | x, .top => .ok (bound.pick .top x)
  | .unknown, x => .ok (bound.pick .unknown x)
  | x, .unknown => .ok (bound.pick .unknown x)
termination_by sizeOf a

/-- A bound of two callable parts. An absent part is below every other one. -/
def Callable.combine (bound : Bound) (f g : Callable) : Except Violation Callable :=
  match f, g with
  | some f, some g => some <$> Signature.combine bound f g
  | f, g => .ok (bound.pick (f.or g) none)
termination_by sizeOf f

/-- A bound of two signatures. A top sentinel is above every signature; of two top sentinels the
    left one is their upper bound and the right one their lower bound. -/
def Signature.combine (bound : Bound) (f g : Signature) : Except Violation Signature :=
  match f, g with
  | .shaped s, .shaped t =>
      match Shape.dominant? bound s t with
      | some u => .ok (.shaped u)
      | none => .shaped <$> Shape.merge bound s t
  -- The upper bound keeps a loose sentinel only where the other operand gives way to it.
  | .top loose, g => .ok (bound.pick (.top (loose && (g.isTop || g.isBottom))) g)
  | f, .top loose => .ok (bound.pick (.top (loose && f.isBottom)) f)
termination_by sizeOf f

/-- Merges two shapes in a draft: their formals position by position, the types of further
    arguments, and the results. Only a loose merge makes do with one result. -/
def Shape.merge (bound : Bound) (s t : Shape) : Except Violation Shape := do
  let rule := MergeRule.of bound s t
  rule.check s t
  Shape.validateForMerge s t
  let formal := fun i => Slot.either rule.formals (s.formalAt? i) (t.formalAt? i)
    >>= Slot.checked (.absentFormals rule.formals)
  -- Further arguments are accepted above two shapes if both accept them, and below if either does.
  let rest := match rule with
    | .precise .join =>
        if s.rest.isSome && t.rest.isSome then
          some (Slot.both .meet s.rest t.rest >>= Slot.checked (.absentOperand .meet))
        else none
    | .precise .meet =>
        if s.rest.isSome || t.rest.isSome then
          some (Slot.either .join s.rest t.rest >>= Slot.checked (.absentFormals .join))
        else none
    | .loose => none
  -- The result follows the bound asked for, and runs against the formals.
  let result := match rule with
    | .precise bound => Slot.both bound s.result t.result >>= Slot.checked (.absentOperand bound)
    | .loose => Slot.either .join s.result t.result >>= Slot.checked (.absentFormals .join)
  -- The first positions are required, whatever they were in the operands.
  let count := rule.requiredCount s.required.length t.required.length
  let draft ← Draft.compose count (max s.span t.span) formal rest result (decide (rule = .loose))
  return draft.build
termination_by sizeOf s
decreasing_by
  · exact s.sizeOf_formalAt?_lt i
  · exact s.sizeOf_rest_lt
  · exact s.sizeOf_rest_lt
  · exact s.sizeOf_result_lt
  · exact s.sizeOf_result_lt

/-- A bound of two slots of which each may be absent: one that is absent lets the other through. -/
def Slot.either (bound : Bound) (x y : Slot) : Except Violation Slot :=
  match x, y with
  | some a, some b => some <$> Ty.combine bound a b
  | x, y => .ok (x.or y)
termination_by sizeOf x

/-- A bound of two slots which is absent unless both are there. -/
def Slot.both (bound : Bound) (x y : Slot) : Except Violation Slot :=
  match x, y with
  | some a, some b => some <$> Ty.combine bound a b
  | _, _ => .ok none
termination_by sizeOf x

end

/-- A bound of two slots, which must both hold a type. -/
def Slot.combine (bound : Bound) (x y : Slot) : Except Violation Ty :=
  Slot.both bound x y >>= Slot.require (.absentOperand bound)

/-!
### The public operations
-/

/-- The least upper bound of two types. -/
def Slot.join (x y : Slot) : Except Violation Ty :=
  Slot.combine .join x y

/-- The greatest lower bound of two types. -/
def Slot.meet (x y : Slot) : Except Violation Ty :=
  Slot.combine .meet x y

/-- The least upper bound of two signatures: what can be relied on when either may be called. -/
def Callable.join (f g : Callable) : Except Violation Callable :=
  Callable.combine .join f g

/-- The greatest lower bound of two signatures. -/
def Callable.meet (f g : Callable) : Except Violation Callable :=
  Callable.combine .meet f g

/-- Narrows a signature by an observed one. A precise signature is not narrowed by an
    approximation. -/
def Signature.specialize (f : Signature) (observed : Callable) : Except Violation Callable :=
  match observed with
  | none => .ok none
  | some g => if !f.isLoose && g.isLoose then .ok (some f) else Callable.meet (some f) (some g)

end SignatureLattice
