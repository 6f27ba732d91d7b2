/-
Module: SignatureLattice.Subtyping
Purpose: Two tests between signatures. The exact one holds when the first signature can stand in for
  the second; it asks whether an adjusted form of the second is an upper bound of both. The
  approximate one holds unless the two make demands that no argument or result can satisfy.
Main exports: Shape.demandSteps, Signature.isSubtypeOf, Signature.isCompatibleWith
-/
import SignatureLattice.Algebra

namespace SignatureLattice

namespace Shape

/-- What is stated of the form of `t` that `s` is measured against. A formal of unknown type demands
    nothing of `s`, further arguments count as one more optional formal, and a result that `s` does
    not know is not held against it. -/
def demandSteps (s t : Shape) : List Draft.Step :=
  t.required.map (fun x => .required (x.map Ty.unknownToBottom))
    ++ t.optional.map (fun x => .optional (x.map Ty.unknownToBottom))
    ++ t.rest.toList.map (fun r => .optional (some r.unknownToBottom))
    ++ [.result (if s.returned.any Ty.isUnknown then some .unknown else t.returned)]
    ++ (if t.loose then [.loose] else [])

/-- Whether some value satisfies both demands at a position. A position at which either shape
    demands nothing is no obstacle. -/
def agreeAt (s t : Shape) (i : Nat) : Except Violation Bool :=
  match s.formalAt? i, t.formalAt? i with
  | some a, some b => (!·.isBottom) <$> Ty.combine .meet a b
  | _, _ => .ok true

/-- Whether the results of both shapes have a value in common, or one of them has no value at
    all. -/
def agreeOnReturn (s t : Shape) : Except Violation Bool :=
  if s.returned.any Ty.isBottom || t.returned.any Ty.isBottom then .ok true
  else (!·.isBottom) <$> Slot.meet s.returned t.returned

/-- Whether two shapes agree at every position that either requires, and on the result. Where there
    is such a position both shapes have to be valid, and the left one is checked first. -/
def isCompatibleWith (s t : Shape) : Except Violation Bool := do
  let count := max s.required.length t.required.length
  if count ≠ 0 then
    s.validate
    t.validate
  if ← (List.range count).allM (s.agreeAt t) then s.agreeOnReturn t
  else return false

end Shape

namespace Signature

/-- Whether `f` can stand in for `g`. Every signature can stand in for a top sentinel, and no
    other one can be stood in for by it. -/
def isSubtypeOf (f g : Signature) : Except Violation Bool :=
  match f, g with
  | _, .top _ => .ok true
  | .top _, .shaped _ => .ok false
  | .shaped s, .shaped t => do
      s.validate
      t.validate
      let draft ← Draft.accept {} (s.demandSteps t)
      let demand := Signature.shaped draft.build
      demand.same <$> Signature.combine .join (.shaped s) demand

/-- Whether `f` may stand in for `g` for all that approximations tell. One of the two has to be
    loose. -/
def isCompatibleWith (f g : Signature) : Except Violation Bool :=
  if !f.isLoose && !g.isLoose then .error .bothPrecise
  else
    match f, g with
    | .shaped s, .shaped t => s.isCompatibleWith t
    | _, _ => .ok true

end Signature

end SignatureLattice
