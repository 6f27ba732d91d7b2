/-
Module: SignatureLattice.Equality
Purpose: Structural equality of types and signatures. It looks at what a signature accepts and
  returns: looseness, the constructed class and the captured variables play no part, and the two
  top sentinels are equal.
Main exports: Ty.same, Signature.same, Shape.same, Slot.same
-/
import SignatureLattice.Ty

namespace SignatureLattice

mutual

/-- Equality of value types: the same extreme type, or the same primitives, the same classes and
    equal callable parts. -/
def Ty.same (a b : Ty) : Bool :=
  match a, b with
  | .top, .top => true
  | .unknown, .unknown => true
  | .union p c f, .union q d g => p == q && c == d && Callable.same f g
  | _, _ => false
termination_by structural a

/-- Equality of callable parts: both absent, or both present and equal. -/
def Callable.same (f g : Callable) : Bool :=
  match f, g with
  | none, none => true
  | some f, some g => f.same g
  | _, _ => false
termination_by structural f

/-- Equality of signatures: both top sentinels, or equal shapes. -/
def Signature.same (f g : Signature) : Bool :=
  match f, g with
  | .top _, .top _ => true
  | .shaped s, .shaped t => s.same t
  | _, _ => false
termination_by structural f

/-- Equality of shapes: the same number of formals of each sort, equal formals position by
    position, equal types for further arguments and equal declared results. -/
def Shape.same (s t : Shape) : Bool :=
  match s with
  | ⟨required, optional, rest, result, _, _, _⟩ =>
      Slot.sameAll required t.required && Slot.sameAll optional t.optional
        && Slot.same rest t.rest && Slot.same result t.result
termination_by structural s

/-- Equality of slot lists, place by place. -/
def Slot.sameAll (l m : List Slot) : Bool :=
  match l, m with
  | [], [] => true
  | x :: xs, y :: ys => Slot.same x y && Slot.sameAll xs ys
  | _, _ => false
termination_by structural l

/-- Equality of slots: both absent, or both present and equal. -/
def Slot.same (x y : Slot) : Bool :=
  match x, y with
  | none, none => true
  | some a, some b => a.same b
  | _, _ => false
termination_by structural x

end

end SignatureLattice
