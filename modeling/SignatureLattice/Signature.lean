/-
Module: SignatureLattice.Signature
Purpose: Building signatures and asking them questions. A built shape is normalized: no optional
  formal at the end of the list says what the type of further arguments says anyway. A shape is
  valid when all its formals and its result are there; nested signatures are not looked at.
Main exports: Shape.normalized, Shape.validate, Signature.validate, Signature.loosen,
  Signature.formalAt, Signature.returned, Signature.constructorValue, NamedClass.constructorValue
-/
import SignatureLattice.Equality
import SignatureLattice.Violation

namespace SignatureLattice

namespace Shape

/-- Drops the optional formals at the end of the list that equal the type of further arguments. The
    first one, from the end, that differs stays, and so do all before it. -/
def normalized (s : Shape) : Shape :=
  match s.rest with
  | none => s
  | some _ =>
      { s with optional := (s.optional.reverse.dropWhile (Slot.same s.rest)).reverse }

/-- The shape of the least signature: it accepts every argument and never returns. -/
def bottom : Shape where
  rest := some .top
  result := some .bottom

/-- Whether the shape equals that of the least signature. A loose shape may. -/
def isBottom (s : Shape) : Bool :=
  s.same bottom

/-- Checks that every formal and the result are there, in the order required formals, optional
    formals, result. -/
def validate (s : Shape) : Except Violation Unit := do
  if s.required.any Option.isNone then throw .absentRequired
  if s.optional.any Option.isNone then throw .absentOptional
  if s.result.isNone then throw .absentResult

end Shape

namespace Signature

/-- The least signature. -/
def bottom : Signature := .shaped .bottom

def isTop : Signature → Bool
  | .top _ => true
  | .shaped _ => false

/-- Whether the signature equals the least one. -/
def isBottom (f : Signature) : Bool :=
  f.same bottom

def isLoose : Signature → Bool
  | .top loose => loose
  | .shaped s => s.loose

def owner? : Signature → Option NamedClass
  | .top _ => none
  | .shaped s => s.owner

/-- The same signature as an approximation. -/
def loosen : Signature → Signature
  | .top _ => .top true
  | .shaped s => .shaped { s with loose := true }

/-- Checks a signature's shape. The top sentinels have none and pass. -/
def validate : Signature → Except Violation Unit
  | .top _ => .ok ()
  | .shaped s => s.validate

/-!
### Questions about the shape

The top sentinels have no shape. Each question says which one it is when it fails there.
-/

/-- The shape of a signature that has one. -/
def shape (query : Query) : Signature → Except Violation Shape
  | .top _ => .error (.topHasNo query)
  | .shaped s => .ok s

/-- What is demanded of the argument at a position. Only a valid signature answers. -/
def formalAt (f : Signature) (i : Nat) : Except Violation Slot := do
  let s ← f.shape .formalAt
  s.validate
  return s.formalAt? i

/-- What a call yields. -/
def returned (f : Signature) : Except Violation Slot :=
  Shape.returned <$> f.shape .returned

/-- What is assumed of a captured variable. Nothing is assumed of one that is not listed. -/
def captured (f : Signature) (name : String) : Except Violation Slot :=
  (fun s => (s.captures.lookup name).join) <$> f.shape .captured

def minArgs (f : Signature) : Except Violation Nat :=
  (·.required.length) <$> f.shape .minArgs

/-- The greatest number of arguments of a call, or `none` if there is no bound. -/
def maxArgs (f : Signature) : Except Violation (Option Nat) :=
  (fun s => if s.rest.isSome then none else some s.span) <$> f.shape .maxArgs

def required (f : Signature) : Except Violation (List Slot) :=
  (·.required) <$> f.shape .required

def optional (f : Signature) : Except Violation (List Slot) :=
  (·.optional) <$> f.shape .optional

def rest (f : Signature) : Except Violation Slot :=
  (·.rest) <$> f.shape .rest

def result (f : Signature) : Except Violation Slot :=
  (·.result) <$> f.shape .result

def captures (f : Signature) : Except Violation (Bindings Slot) :=
  (·.captures) <$> f.shape .captures

end Signature

/-!
### Functions and constructors as values
-/

/-- The type of the functions of a signature. -/
def Callable.toTy : Callable → Except Violation Ty
  | none => .error .absentCallable
  | some f => .ok (.callableOf f)

/-- The type of the functions with the given formals and result, which are normalized. -/
def Ty.ofFormals (required optional : List Slot) (rest result : Slot) : Ty :=
  .callableOf (.shaped (Shape.normalized { required, optional, rest, result }))

/-- The type of a class's constructor as a value, from the signature of the constructor. The
    signature has to construct this very class. -/
def NamedClass.constructorValue (c : NamedClass) : Callable → Except Violation Ty
  | some f => if f.owner? = some c then .ok (.callableOf f) else .error .foreignConstructor
  | none => .error .foreignConstructor

/-- The type of the object that a constructor works on. -/
def Signature.thisType (f : Signature) : Except Violation Ty :=
  match f.owner? with
  | some c => .ok (.instanceOf c)
  | none => .error (.notConstructor .thisType)

/-- The type of a constructor as a value. -/
def Signature.constructorValue (f : Signature) : Except Violation Ty :=
  match f.owner? with
  | some c => c.constructorValue (some f)
  | none => .error (.notConstructor .constructorValue)

end SignatureLattice
