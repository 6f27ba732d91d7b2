/-
Module: SignatureLattice.Primitives
Purpose: Sets of primitive types, as five independent flags, with union and intersection flag by
  flag. The weight of a set is its code in dumps and fingerprints.
Main exports: Primitives, Primitives.union, Primitives.inter, Primitives.weight, Primitives.names
-/

namespace SignatureLattice

/-- A set of primitive types: each flag says whether its primitive belongs to the set. -/
structure Primitives where
  null : Bool := false
  undefined : Bool := false
  boolean : Bool := false
  number : Bool := false
  string : Bool := false
deriving DecidableEq, Repr, Inhabited

namespace Primitives

def union (a b : Primitives) : Primitives where
  null := a.null || b.null
  undefined := a.undefined || b.undefined
  boolean := a.boolean || b.boolean
  number := a.number || b.number
  string := a.string || b.string

def inter (a b : Primitives) : Primitives where
  null := a.null && b.null
  undefined := a.undefined && b.undefined
  boolean := a.boolean && b.boolean
  number := a.number && b.number
  string := a.string && b.string

def isEmpty (p : Primitives) : Bool :=
  p = {}

/-- The code of a set: the sum of its members' codes, which are the first five powers of two in
    the order of the fields. -/
def weight (p : Primitives) : Nat :=
  p.null.toNat + 2 * p.undefined.toNat + 4 * p.boolean.toNat + 8 * p.number.toNat
    + 16 * p.string.toNat

/-- The names of the members, in the order of the fields. -/
def names (p : Primitives) : List String :=
  (if p.null then ["null"] else []) ++ (if p.undefined then ["undefined"] else [])
    ++ (if p.boolean then ["boolean"] else []) ++ (if p.number then ["number"] else [])
    ++ (if p.string then ["string"] else [])

end Primitives

end SignatureLattice
