/-
Module: SignatureLattice.Violation
Purpose: The ways in which a request can break a rule of the library, one constructor for each
  cause, and the text that reports each of them.
Main exports: Query, Violation, Violation.message
-/
import SignatureLattice.Operation

namespace SignatureLattice

/-- The questions about a signature that only a signature with a shape can answer. -/
inductive Query where
  | formalAt
  | returned
  | captured
  | minArgs
  | maxArgs
  | required
  | optional
  | rest
  | result
  | captures
deriving DecidableEq, Repr, Inhabited

/-- What a constructor, and nothing but a constructor, can be asked for. -/
inductive ConstructorQuery where
  | thisType
  | constructorValue
deriving DecidableEq, Repr, Inhabited

/-- A broken rule. -/
inductive Violation where
  /-- A bound of two types was asked for and one of them is absent. -/
  | absentOperand (bound : Bound)
  /-- Two formals were to be merged and neither is there. -/
  | absentFormals (bound : Bound)
  /-- A callable value was asked for without a signature. -/
  | absentCallable
  /-- A required formal has no type. -/
  | absentRequired
  /-- An optional formal has no type. -/
  | absentOptional
  /-- A signature has no result type. -/
  | absentResult
  /-- The top signature has no shape to be asked about. -/
  | topHasNo (query : Query)
  /-- The signature constructs no class. -/
  | notConstructor (query : ConstructorQuery)
  /-- The signature does not construct the class at hand. -/
  | foreignConstructor
  /-- The compatibility test was asked about two precise signatures. -/
  | bothPrecise
  /-- Two precise signatures were to be merged as approximations. -/
  | neitherLoose
  /-- A draft got a required formal after an optional or rest formal. -/
  | requiredTooLate
  /-- A draft got an optional formal after the rest formal. -/
  | optionalTooLate
  /-- A draft got a rest formal without a type. -/
  | absentRest
  /-- A draft got a second rest formal. -/
  | secondRest
  /-- A draft got a second result. -/
  | secondResult
  /-- An operation needs a signature that is absent. -/
  | absentSignature (operation : Operation)
deriving DecidableEq, Repr, Inhabited

def Query.text : Query → String
  | .formalAt => "formalTypeAt: top function has no formals"
  | .returned => "returnTypeOf: top function has no return type"
  | .captured => "outerVarPrecondition: top function has no captured variables"
  | .minArgs => "minArity: top function has no arity"
  | .maxArgs => "maxArity: top function has no arity"
  | .required => "requiredFormals: top function has no formals"
  | .optional => "optionalFormals: top function has no formals"
  | .rest => "restFormal: top function has no formals"
  | .result => "declaredReturnType: top function has no return type"
  | .captures => "outerVarPreconditions: top function has no captured variables"

def ConstructorQuery.text : ConstructorQuery → String
  | .thisType => "typeOfThis"
  | .constructorValue => "createConstructorObject"

def Operation.text : Operation → String
  | .join => "join"
  | .meet => "meet"
  | .specialize => "specialize"
  | .subtype => "isSubtypeOf"
  | .compatible => "isLooseSubtypeOf"

namespace Violation

def text : Violation → String
  | absentOperand bound => "ValueType::" ++ bound.word ++ ": null operand"
  | absentFormals bound => "FunctionType: " ++ bound.word ++ " of two absent formals"
  | absentCallable => "ValueType::fromFunction: null signature"
  | absentRequired => "FunctionType::checkValid: null required formal"
  | absentOptional => "FunctionType::checkValid: null optional formal"
  | absentResult => "FunctionType::checkValid: null return type"
  | topHasNo query => "FunctionType::" ++ query.text
  | notConstructor query => "FunctionType::" ++ query.text ++ ": not a constructor"
  | foreignConstructor =>
      "NominalClass::createConstructorObject: signature does not construct this class"
  | bothPrecise => "FunctionType::isLooseSubtypeOf: neither signature is loose"
  | neitherLoose => "FunctionType::looseJoin: neither operand is loose"
  | requiredTooLate => "FunctionTypeBuilder: required formal after optional or rest formal"
  | optionalTooLate => "FunctionTypeBuilder: optional formal after rest formal"
  | absentRest => "FunctionTypeBuilder: null rest formal"
  | secondRest => "FunctionTypeBuilder: rest formal already set"
  | secondResult => "FunctionTypeBuilder: return type already set"
  | absentSignature operation => "FunctionLattice::" ++ operation.text ++ ": null signature"

def message (violation : Violation) : String :=
  "invariant violated: " ++ violation.text

end Violation

end SignatureLattice
