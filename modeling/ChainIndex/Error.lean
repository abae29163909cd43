/-!
# Errors

An error has a category, which fixes its code and whether the same block may succeed when it is
submitted again, and a reason. Conversions of amounts fail for three causes of their own, which
most callers answer by a substitute instead of failing.
-/

namespace ChainIndex

/-- Why an amount has no floating-point form. -/
inductive ConversionError where
  /-- The amount is wider than a token value can be, or past the largest double. -/
  | valueTooBig
  /-- The text is no decimal integer. -/
  | notAnInteger
  /-- The number of decimals of the currency is negative. -/
  | negativeDenomination
deriving Repr, DecidableEq, Inhabited

/-- The wording of a conversion error. -/
def ConversionError.message : ConversionError → String
  | .valueTooBig => "provided value is too big"
  | .notAnInteger => "cannot convert string to big value"
  | .negativeDenomination => "negative denomination value"

/-- An error, by category. -/
inductive Error where
  /-- A value that was handed in cannot be used. -/
  | invalidInput (reason : String)
  /-- A setting cannot be used. -/
  | invalidConfig (reason : String)
  /-- An amount cannot be converted. -/
  | conversion (cause : ConversionError)
  /-- A value cannot be written. -/
  | serialization (reason : String)
  /-- Something outside the library failed, such as the token store. -/
  | internal (reason : String)
deriving Repr, DecidableEq, Inhabited

namespace Error

/-- The number of the category. -/
def code : Error → Nat
  | .invalidInput _ => 400
  | .invalidConfig _ => 412
  | .conversion _ => 422
  | .serialization _ => 500
  | .internal _ => 500

/-- Whether the same block may succeed when it is submitted again. -/
def retriable : Error → Bool
  | .serialization _ => true
  | .internal _ => true
  | _ => false

/-- The category in words and the reason. -/
def message : Error → String
  | .invalidInput reason => "Invalid Input: " ++ reason
  | .invalidConfig reason => "Invalid Config: " ++ reason
  | .conversion cause => "Conversion Error: " ++ cause.message
  | .serialization reason => "Serialization Error: " ++ reason
  | .internal reason => "Internal Error: " ++ reason

/-- One line with everything there is to say about an error. -/
def display (e : Error) : String :=
  "Error #" ++ toString e.code ++ (if e.retriable then " (retriable)" else "") ++ ": " ++ e.message

end Error

end ChainIndex
