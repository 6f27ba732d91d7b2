/-
Module: SignatureLattice.Session
Purpose: Sequences of requests to the library. Every type, signature and draft that a request makes
  goes into the next free register of its kind, and later requests take their operands from
  registers. A request that fails leaves the session as it was.
Main exports: Constant, Register, Question, Statement, Request, Session, Session.step,
  Session.attempt, Session.run
-/
import SignatureLattice.Algebra
import SignatureLattice.Draft

namespace SignatureLattice

/-- The types that need no operands. -/
inductive Constant where
  | top
  | unknown
  | bottom
  | null
  | undefined
  | boolean
  | number
  | string
deriving DecidableEq, Repr, Inhabited

def Constant.ty : Constant → Ty
  | .top => .top
  | .unknown => .unknown
  | .bottom => .bottom
  | .null => .ofPrimitives { null := true }
  | .undefined => .ofPrimitives { undefined := true }
  | .boolean => .ofPrimitives { boolean := true }
  | .number => .ofPrimitives { number := true }
  | .string => .ofPrimitives { string := true }

/-- The number of a register. There is a row of registers for types, one for signatures and one for
    drafts. -/
abbrev Register := Nat

/-- What can be asked of a signature and has a type for an answer. The formals of either sort are
    asked for by their place among them. -/
inductive Question where
  | formalAt (i : Nat)
  | required (i : Nat)
  | optional (i : Nat)
  | rest
  | result
  | returned
  | captured (name : String)
  | thisType
deriving DecidableEq, Repr, Inhabited

/-- The answer of a signature to a question. -/
def Question.ask (f : Signature) : Question → Except Violation Slot
  | .formalAt i => f.formalAt i
  | .required i => (·[i]?.join) <$> f.required
  | .optional i => (·[i]?.join) <$> f.optional
  | .rest => f.rest
  | .result => f.result
  | .returned => f.returned
  | .captured name => f.captured name
  | .thisType => some <$> f.thisType

/-- A statement about a signature under construction, with registers in place of types. -/
inductive Statement where
  | required (x : Register)
  | optional (x : Register)
  | rest (x : Register)
  | result (x : Register)
  | owner (c : NamedClass)
  | capture (name : String) (x : Register)
  | loose
deriving DecidableEq, Repr, Inhabited

/-- The statement about the types in the registers. -/
def Statement.step (slot : Register → Slot) : Statement → Draft.Step
  | .required x => .required (slot x)
  | .optional x => .optional (slot x)
  | .rest x => .rest (slot x)
  | .result x => .result (slot x)
  | .owner c => .owner c
  | .capture name x => .capture name (slot x)
  | .loose => .loose

/-- One request to the library: the first eight are for a type, the next eight for a signature, and
    the last one goes on with a draft. -/
inductive Request where
  | constant (c : Constant)
  | instanceOf (c : NamedClass)
  | callableOf (f : Register)
  | combineTypes (bound : Bound) (x y : Register)
  | ofFormals (required optional : List Register) (rest result : Register)
  | constructorOf (c : NamedClass) (f : Register)
  | constructor (f : Register)
  | question (f : Register) (question : Question)
  | top (loose : Bool)
  | bottom
  | normalized (required optional : List Register) (rest result : Register)
      (owner : Option NamedClass) (captures : List (String × Register)) (loose : Bool)
  | loosen (f : Register)
  | combine (bound : Bound) (f g : Register)
  | specialize (f g : Register)
  | callablePart (x : Register)
  | build (d : Register)
  | state (d : Register) (statement : Statement)
deriving DecidableEq, Repr, Inhabited

/-- Everything that the requests of a session have made so far. A type or a signature that was made
    may be absent. -/
structure Session where
  types : List Slot := []
  signatures : List Callable := []
  drafts : List Draft := []

namespace Session

/-- The type in a register. Nothing is in a register that no request has reached. -/
def slot (s : Session) (x : Register) : Slot :=
  s.types[x]?.join

@[inherit_doc slot]
def callable (s : Session) (f : Register) : Callable :=
  s.signatures[f]?.join

/-- The signature in a register that must hold one. -/
def signature (s : Session) (f : Register) : Except Violation Signature :=
  match s.callable f with
  | some f => .ok f
  | none => .error .absentCallable

/-- The draft in a register. A fresh one is in a register that no request has reached. -/
def draft (s : Session) (d : Register) : Draft :=
  s.drafts[d]?.getD {}

def keepType (s : Session) (x : Slot) : Session :=
  { s with types := s.types ++ [x] }

def keepSignature (s : Session) (f : Callable) : Session :=
  { s with signatures := s.signatures ++ [f] }

def keepDraft (s : Session) (d : Draft) : Session :=
  { s with drafts := s.drafts ++ [d] }

/-- Answers a request. -/
def step (s : Session) : Request → Except Violation Session
  | .constant c => .ok (s.keepType (some c.ty))
  | .instanceOf c => .ok (s.keepType (some (.instanceOf c)))
  | .callableOf f => (fun t => s.keepType (some t)) <$> (s.callable f).toTy
  | .combineTypes bound x y =>
      (fun t => s.keepType (some t)) <$> Slot.combine bound (s.slot x) (s.slot y)
  | .ofFormals required optional rest result =>
      .ok (s.keepType (some (.ofFormals (required.map s.slot) (optional.map s.slot) (s.slot rest)
        (s.slot result))))
  | .constructorOf c f => (fun t => s.keepType (some t)) <$> c.constructorValue (s.callable f)
  | .constructor f => do
      let f ← s.signature f
      (fun t => s.keepType (some t)) <$> f.constructorValue
  | .question f question => do
      let f ← s.signature f
      s.keepType <$> question.ask f
  | .top loose => .ok (s.keepSignature (some (.top loose)))
  | .bottom => .ok (s.keepSignature (some .bottom))
  | .normalized required optional rest result owner captures loose =>
      .ok (s.keepSignature (some (.shaped (Shape.normalized {
        required := required.map s.slot
        optional := optional.map s.slot
        rest := s.slot rest
        result := s.slot result
        owner
        captures := Bindings.ofList (captures.map fun capture => (capture.1, s.slot capture.2))
        loose }))))
  | .loosen f => (fun f => s.keepSignature (some f.loosen)) <$> s.signature f
  | .combine bound f g => s.keepSignature <$> Callable.combine bound (s.callable f) (s.callable g)
  | .specialize f g => do
      let f ← s.signature f
      s.keepSignature <$> f.specialize (s.callable g)
  | .callablePart x => .ok (s.keepSignature ((s.slot x).bind Ty.callable?))
  | .build d => .ok (s.keepSignature (some (.shaped (s.draft d).build)))
  | .state d statement => s.keepDraft <$> (s.draft d).step (statement.step s.slot)

/-- Answers a request, or leaves the session as it is if the request fails. -/
def attempt (s : Session) (request : Request) : Session :=
  match s.step request with
  | .ok next => next
  | .error _ => s

/-- The session after a sequence of requests. -/
def run (requests : List Request) : Session :=
  requests.foldl attempt {}

end Session

end SignatureLattice
