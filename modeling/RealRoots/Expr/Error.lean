import RealRoots.Number.Text
import RealRoots.Json.Stored

/-!
# What can be wrong with a formula

* `EvalError`: a formula has no value at some `x`.
* `FormulaError`: a text is no formula, or has no value at any sample point.

Each error has one message and one stored form.
-/

namespace RealRoots

/-- Why a formula has no value. Each cause carries the `x` at which it arose. -/
inductive EvalError where
  | divisionByZero (x : Float)
  | domain (function : String) (argument x : Float)
  | nonFinite (x : Float)
  deriving DecidableEq

namespace EvalError

/-- The `x` at which there was no value. -/
def x : EvalError → Float
  | divisionByZero x => x
  | domain _ _ x => x
  | nonFinite x => x

def message : EvalError → String
  | divisionByZero x => "division by zero at x = " ++ plain x
  | domain function argument x =>
    function ++ "(" ++ plain argument ++ ") is undefined (x = " ++ plain x ++ ")"
  | nonFinite x => "result is not a finite number at x = " ++ plain x

def kind : EvalError → String
  | divisionByZero _ => "DivisionByZero"
  | domain .. => "Domain"
  | nonFinite _ => "NonFinite"

/-- The fields of the stored form. -/
def details : EvalError → List (String × Json)
  | divisionByZero x => [("x", write x)]
  | domain function argument x =>
    [("function", write function), ("argument", write argument), ("x", write x)]
  | nonFinite x => [("x", write x)]

/-- The error of that kind with those fields. -/
def ofDetails? (kind : String) (details : Json) : Option EvalError :=
  match kind with
  | "DivisionByZero" => do some (divisionByZero (← details.required "x"))
  | "Domain" => do
    some (domain (← details.required "function") (← details.required "argument")
      (← details.required "x"))
  | "NonFinite" => do some (nonFinite (← details.required "x"))
  | _ => none

instance : Stored EvalError where
  write e := .tagged e.kind e.details
  read? value := value.kind?.bind fun (kind, details) => ofDetails? kind details

end EvalError

/-- Why a text is no formula. Positions count the bytes before a token or character. -/
inductive FormulaError where
  | empty
  | unexpectedCharacter (character : Char) (position : Nat)
  | invalidNumber (text : String) (position : Nat)
  | unexpectedToken (found : String) (position : Nat)
  | unexpectedEnd
  | unknownIdentifier (name : String) (position : Nat)
  | unknownFunction (name : String) (position : Nat)
  | wrongArity (function : String) (expected found : Nat)
  | tooDeep (limit position : Nat)
  | undefinedAtSamples (first : EvalError)
  deriving DecidableEq

namespace FormulaError

def message : FormulaError → String
  | empty => "Function cannot be empty"
  | unexpectedCharacter character position =>
    "Unexpected character '" ++ String.singleton character ++ "' at position " ++ toString position
  | invalidNumber text position =>
    "Invalid number '" ++ text ++ "' at position " ++ toString position
  | unexpectedToken found position =>
    "Unexpected '" ++ found ++ "' at position " ++ toString position
  | unexpectedEnd => "Unexpected end of expression"
  | unknownIdentifier name position =>
    "Unknown identifier '" ++ name ++ "' at position " ++ toString position
  | unknownFunction name position =>
    "Unknown function '" ++ name ++ "' at position " ++ toString position
  | wrongArity function expected found =>
    "Function '" ++ function ++ "' expects " ++ toString expected ++ " argument(s), got " ++
      toString found
  | tooDeep limit position =>
    "Expression nests deeper than " ++ toString limit ++ " levels (at position " ++
      toString position ++ ")"
  | undefinedAtSamples first =>
    "Function is undefined at every sample point: " ++ first.message

def kind : FormulaError → String
  | empty => "Empty"
  | unexpectedCharacter .. => "UnexpectedCharacter"
  | invalidNumber .. => "InvalidNumber"
  | unexpectedToken .. => "UnexpectedToken"
  | unexpectedEnd => "UnexpectedEnd"
  | unknownIdentifier .. => "UnknownIdentifier"
  | unknownFunction .. => "UnknownFunction"
  | wrongArity .. => "WrongArity"
  | tooDeep .. => "TooDeep"
  | undefinedAtSamples _ => "Undefined"

/-- The details of the stored form, if there are any. -/
def details? : FormulaError → Option Json
  | empty | unexpectedEnd => none
  | unexpectedCharacter character position =>
    some (.object [("character", write character), ("position", write position)])
  | invalidNumber text position =>
    some (.object [("text", write text), ("position", write position)])
  | unexpectedToken found position =>
    some (.object [("found", write found), ("position", write position)])
  | unknownIdentifier name position | unknownFunction name position =>
    some (.object [("name", write name), ("position", write position)])
  | wrongArity function expected found =>
    some (.object [("function", write function), ("expected", write expected),
      ("found", write found)])
  | tooDeep limit position =>
    some (.object [("limit", write limit), ("position", write position)])
  | undefinedAtSamples first => some (write first)

/-- The error of that kind with those details. -/
def ofDetails? (kind : String) (details : Json) : Option FormulaError :=
  match kind, details with
  | "Empty", .null => some empty
  | "UnexpectedEnd", .null => some unexpectedEnd
  | "UnexpectedCharacter", details => do
    some (unexpectedCharacter (← details.required "character") (← details.required "position"))
  | "InvalidNumber", details => do
    some (invalidNumber (← details.required "text") (← details.required "position"))
  | "UnexpectedToken", details => do
    some (unexpectedToken (← details.required "found") (← details.required "position"))
  | "UnknownIdentifier", details => do
    some (unknownIdentifier (← details.required "name") (← details.required "position"))
  | "UnknownFunction", details => do
    some (unknownFunction (← details.required "name") (← details.required "position"))
  | "WrongArity", details => do
    some (wrongArity (← details.required "function") (← details.required "expected")
      (← details.required "found"))
  | "TooDeep", details => do
    some (tooDeep (← details.required "limit") (← details.required "position"))
  | "Undefined", details => do some (undefinedAtSamples (← read? details))
  | _, _ => none

instance : Stored FormulaError where
  write e := .object (("type", .string e.kind) :: (e.details?.map (("details", ·))).toList)
  read? value := value.kind?.bind fun (kind, details) => ofDetails? kind details

end FormulaError

end RealRoots
