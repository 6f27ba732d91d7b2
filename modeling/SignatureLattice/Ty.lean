/-
Module: SignatureLattice.Ty
Purpose: Value types and function signatures, two kinds of tree that hold one another. A value
  type is the top type, the unknown type, or a union of primitives, instances of named classes
  and at most one callable part. A signature is a top sentinel or a shape. A slot is the place of
  a type that may be absent, because a signature under construction need not be complete.
Main exports: Ty, Signature, Shape, Slot, Callable, Ty.bottom, Ty.instanceOf, Ty.callableOf,
  Shape.formalAt?, Shape.returned, Shape.sizeOf_formalAt?_lt
-/
import SignatureLattice.Bindings
import SignatureLattice.NamedClass
import SignatureLattice.Primitives

namespace SignatureLattice

mutual

/-- A value type: the values that an expression may have. `unknown` stands for a type that has not
    been found out. -/
inductive Ty where
  | top
  | unknown
  | union (primitives : Primitives) (classes : ClassSet) (callable : Option Signature)

/-- A function signature. A loose signature approximates what has been observed of a function; all
    others are precise. -/
inductive Signature where
  | top (loose : Bool)
  | shaped (shape : Shape)

/-- The parts of a signature: required formals, optional formals, the type of all further
    arguments, the declared result, the class that it constructs, what is assumed of captured
    variables, and whether it is loose. -/
structure Shape where
  required : List (Option Ty) := []
  optional : List (Option Ty) := []
  rest : Option Ty := none
  result : Option Ty := none
  owner : Option NamedClass := none
  captures : List (String × Option Ty) := []
  loose : Bool := false

end

/-- The place of a type that may be absent. -/
abbrev Slot := Option Ty

/-- The callable part of a type, or the operand of an operation on signatures: a signature that may
    be absent. -/
abbrev Callable := Option Signature

namespace Ty

/-- The type of no value. -/
def bottom : Ty := .union {} [] none

def ofPrimitives (p : Primitives) : Ty := .union p [] none

def instanceOf (c : NamedClass) : Ty := .union {} [c] none

def callableOf (f : Signature) : Ty := .union {} [] (some f)

def isTop : Ty → Bool
  | .top => true
  | _ => false

def isUnknown : Ty → Bool
  | .unknown => true
  | _ => false

def isBottom : Ty → Bool
  | .union p [] none => p.isEmpty
  | _ => false

/-- The code of a type's primitive part. The two extreme types have a code of their own, which is
    above that of every set of primitives. -/
def weight : Ty → Nat
  | .top => 1 <<< 30
  | .unknown => 1 <<< 31
  | .union p _ _ => p.weight

def classes : Ty → ClassSet
  | .union _ c _ => c
  | _ => []

/-- The signature of the functions that belong to the type. -/
def callable? : Ty → Callable
  | .union _ _ f => f
  | _ => none

/-- Reads the unknown type as the type of no value, and leaves every other type. -/
def unknownToBottom (t : Ty) : Ty :=
  if t.isUnknown then bottom else t

end Ty

namespace Shape

/-- The number of formals that have a position of their own. -/
def span (s : Shape) : Nat :=
  s.required.length + s.optional.length

/-- What is demanded of the argument at a position: the formal there, or the type of further
    arguments past the last formal. -/
def formalAt? (s : Shape) (i : Nat) : Slot :=
  (s.required ++ s.optional).getD i s.rest

/-- What a call yields: an instance of the class if the shape constructs one, and otherwise the
    declared result. -/
def returned (s : Shape) : Slot :=
  match s.owner with
  | some c => some (Ty.instanceOf c)
  | none => s.result

end Shape

/-!
### Parts are smaller

Recursion that descends into the formals by position ends because a formal is a part of its
shape.
-/

theorem sizeOf_append_succ {α : Type} [SizeOf α] (l m : List α) :
    sizeOf (l ++ m) + 1 = sizeOf l + sizeOf m := by
  induction l with
  | nil => simp; omega
  | cons a l ih => simp; omega

theorem sizeOf_getD_lt {α : Type} [SizeOf α] (l : List α) (i : Nat) (d : α) :
    sizeOf (l.getD i d) < sizeOf l + sizeOf d + 1 := by
  rw [List.getD_eq_getElem?_getD]
  cases h : l[i]? with
  | none => simp only [Option.getD_none]; omega
  | some a =>
      have := List.sizeOf_lt_of_mem (List.mem_of_getElem? h)
      simp only [Option.getD_some]; omega

namespace Shape

/-- What is demanded at a position is smaller than the shape. -/
theorem sizeOf_formalAt?_lt (s : Shape) (i : Nat) : sizeOf (s.formalAt? i) < sizeOf s := by
  obtain ⟨required, optional, rest, result, owner, captures, loose⟩ := s
  have h₁ := sizeOf_getD_lt (required ++ optional) i rest
  have h₂ := sizeOf_append_succ required optional
  simp only [formalAt?, Shape.mk.sizeOf_spec]
  omega

theorem sizeOf_rest_lt (s : Shape) : sizeOf s.rest < sizeOf s := by
  cases s; simp only [Shape.mk.sizeOf_spec]; omega

theorem sizeOf_result_lt (s : Shape) : sizeOf s.result < sizeOf s := by
  cases s; simp only [Shape.mk.sizeOf_spec]; omega

end Shape

end SignatureLattice
