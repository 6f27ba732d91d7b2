/-
Module: SignatureLattice.Rendering
Purpose: Types and signatures as text for diagnostics, such as `(number|string)` and
  `function (number, string=, ...boolean): number (loose)`.
Main exports: Ty.render, Signature.render, Callable.render
-/
import SignatureLattice.Ty

namespace SignatureLattice

/-- The text of a union from the texts of its parts: the one part alone, or all of them between
    brackets and separated by bars. A union without parts is the bottom type. -/
def renderUnion : List String → String
  | [] => "bottom"
  | [part] => part
  | parts => "(" ++ "|".intercalate parts ++ ")"

/-- The text of a shape from the texts of its parts. An absent result and an empty list of captured
    variables leave no trace. -/
def renderShape (formals : List String) (result : Option String) (loose : Bool)
    (captures : List String) : String :=
  "function (" ++ ", ".intercalate formals ++ ")"
    ++ (result.map (": " ++ ·)).getD ""
    ++ (if loose then " (loose)" else "")
    ++ (if captures.isEmpty then "" else "\tFV:\x7b" ++ ", ".intercalate captures ++ "\x7d")

mutual

/-- The text of a type. The parts of a union are its primitives, its classes by name and its
    callable part, in this order. -/
def Ty.render (t : Ty) : String :=
  match t with
  | .top => "*"
  | .unknown => "?"
  | .union p classes callable =>
      renderUnion (p.names ++ classes.map (·.name) ++ (Callable.text? callable).toList)
termination_by structural t

/-- The text of a callable part, if there is one. -/
def Callable.text? (callable : Callable) : Option String :=
  match callable with
  | none => none
  | some f => some f.render
termination_by structural callable

/-- The text of a signature. -/
def Signature.render (f : Signature) : String :=
  match f with
  | .top loose => if loose then "TOP_FUNCTION (loose)" else "TOP_FUNCTION"
  | .shaped s => s.render
termination_by structural f

/-- The text of a shape: the class that it constructs comes first among the formals, an optional
    formal is followed by an equals sign, and the type of further arguments comes last, after three
    dots. -/
def Shape.render (s : Shape) : String :=
  match s with
  | ⟨required, optional, rest, result, owner, captures, loose⟩ =>
      let formals := (owner.map ("new:" ++ ·.name)).toList ++ Slot.renderAll required
        ++ (Slot.renderAll optional).map (· ++ "=")
        ++ ((Slot.text? rest).map ("..." ++ ·)).toList
      renderShape formals (Slot.text? result) loose (Capture.renderAll captures)
termination_by structural s

/-- The texts of slots. An absent type is written `null`. -/
def Slot.renderAll (slots : List Slot) : List String :=
  match slots with
  | [] => []
  | x :: xs => (Slot.text? x).getD "null" :: Slot.renderAll xs
termination_by structural slots

/-- The text of the type in a slot, if there is one. -/
def Slot.text? (x : Slot) : Option String :=
  match x with
  | none => none
  | some t => some t.render
termination_by structural x

/-- The texts of what is assumed of captured variables. -/
def Capture.renderAll (captures : List (String × Slot)) : List String :=
  match captures with
  | [] => []
  | capture :: rest => Capture.render capture :: Capture.renderAll rest
termination_by structural captures

/-- The text of what is assumed of one captured variable. -/
def Capture.render (capture : String × Slot) : String :=
  match capture with
  | (name, x) => name ++ "=" ++ (Slot.text? x).getD "null"
termination_by structural capture

end

/-- The text of the operand of an operation on signatures. -/
def Callable.render (callable : Callable) : String :=
  (Callable.text? callable).getD "<absent>"

end SignatureLattice
