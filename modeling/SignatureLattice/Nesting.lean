/-
Module: SignatureLattice.Nesting
Purpose: What is nested in a type or in a signature, at any depth. A signature's parts are its
  formals, the type of further arguments and its declared result, with all that is nested in them;
  the class that it constructs and its captured variables are no parts of it.
Main exports: Ty.parts, Signature.parts, Signature.nested, Ty.isClassFree, Signature.isClassFree
-/
import SignatureLattice.Ty

namespace SignatureLattice

mutual

/-- A type and all types nested in it. -/
def Ty.parts (t : Ty) : List Ty :=
  match t with
  | .top => [.top]
  | .unknown => [.unknown]
  | .union p classes callable => .union p classes callable :: Callable.parts callable
termination_by structural t

def Callable.parts (callable : Callable) : List Ty :=
  match callable with
  | none => []
  | some f => f.parts
termination_by structural callable

def Signature.parts (f : Signature) : List Ty :=
  match f with
  | .top _ => []
  | .shaped s => s.parts
termination_by structural f

/-- All types nested in a shape. -/
def Shape.parts (s : Shape) : List Ty :=
  match s with
  | ⟨required, optional, rest, result, _, _, _⟩ =>
      Slot.partsAll required ++ Slot.partsAll optional ++ Slot.parts rest ++ Slot.parts result
termination_by structural s

/-- All types nested in some of the slots. -/
def Slot.partsAll (slots : List Slot) : List Ty :=
  match slots with
  | [] => []
  | x :: xs => Slot.parts x ++ Slot.partsAll xs
termination_by structural slots

def Slot.parts (x : Slot) : List Ty :=
  match x with
  | none => []
  | some t => t.parts
termination_by structural x

end

/-- A signature and all signatures nested in it. -/
def Signature.nested (f : Signature) : List Signature :=
  f :: f.parts.filterMap Ty.callable?

/-- Whether no instance of a named class belongs to the type or to a type nested in it. -/
def Ty.isClassFree (t : Ty) : Bool :=
  t.parts.all (·.classes.isEmpty)

/-- Whether no instance of a named class belongs to a type nested in the signature. -/
def Signature.isClassFree (f : Signature) : Bool :=
  f.parts.all (·.classes.isEmpty)

/-!
### Membership

A part of a shape is a part of one of its slots.
-/

theorem Slot.mem_partsAll {t : Ty} {slots : List Slot} :
    t ∈ Slot.partsAll slots ↔ ∃ x ∈ slots, t ∈ Slot.parts x := by
  induction slots with
  | nil => simp [Slot.partsAll]
  | cons x xs ih => simp [Slot.partsAll, ih]

theorem Shape.mem_parts {t : Ty} {s : Shape} :
    t ∈ s.parts ↔
      (∃ x ∈ s.required ++ s.optional, t ∈ Slot.parts x) ∨ t ∈ Slot.parts s.rest
        ∨ t ∈ Slot.parts s.result := by
  cases s
  simp only [Shape.parts, List.mem_append, Slot.mem_partsAll, or_assoc, or_and_right, exists_or]

theorem Ty.mem_parts_self (t : Ty) : t ∈ t.parts := by
  cases t <;> simp [Ty.parts]

end SignatureLattice
