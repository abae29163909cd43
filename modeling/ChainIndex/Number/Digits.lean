/-!
# Integers in decimal text

Three grammars. An amount is a signed number of any size that may hold underscores between its
digits. A setting is a number of a fixed width, and its fault is the first one met from the left.
A power is the exponent of a decimal fraction.
-/

namespace ChainIndex.Digits

/-- The value of a decimal digit. -/
def value? (c : Char) : Option Nat :=
  if c.isDigit then some (c.toNat - 48) else none

/-- The digits of a natural number. -/
def ofNat (n : Nat) : String :=
  String.ofList (Nat.toDigits 10 n)

/-- The decimal text of an integer. -/
def ofInt (n : Int) : String :=
  if n < 0 then "-" ++ ofNat n.natAbs else ofNat n.natAbs

/-- Goes on with `n` over digits and underscores. -/
def magnitudeFrom (n : Nat) : List Char → Option Nat
  | [] => some n
  | c :: rest =>
    if c = '_' then magnitudeFrom n rest
    else (value? c).bind fun d => magnitudeFrom (10 * n + d) rest

/-- Digits with underscores between them, of which one at least is a digit and the first. -/
def magnitude? : List Char → Option Nat
  | [] => none
  | c :: rest => if c = '_' then none else magnitudeFrom 0 (c :: rest)

/-- A magnitude after at most one plus sign. -/
def unsigned? : List Char → Option Nat
  | '+' :: rest => magnitude? rest
  | cs => magnitude? cs

/-- An amount: an integer after at most one sign. -/
def int? : List Char → Option Int
  | '-' :: '+' :: _ => none
  | '-' :: rest => (unsigned? rest).map fun n => -Int.ofNat n
  | cs => (unsigned? cs).map Int.ofNat

/-- Why a text is no integer of a fixed width. -/
inductive Fault where
  | empty
  | badDigit
  | tooLarge
  | tooSmall
deriving Repr, DecidableEq

/-- The wording of a fault. -/
def Fault.message : Fault → String
  | .empty => "cannot parse integer from empty string"
  | .badDigit => "invalid digit found in string"
  | .tooLarge => "number too large to fit in target type"
  | .tooSmall => "number too small to fit in target type"

/-- Goes on with the magnitude `n` of a number whose magnitude is at most `limit`. -/
def boundedFrom (limit : Nat) (overflow : Fault) (n : Nat) : List Char → Except Fault Nat
  | [] => .ok n
  | c :: rest =>
    match value? c with
    | none => .error .badDigit
    | some d =>
      if limit < 10 * n + d then .error overflow
      else boundedFrom limit overflow (10 * n + d) rest

/-- A number from zero to `limit` after at most one plus sign. -/
def boundedNat (limit : Nat) : List Char → Except Fault Nat
  | [] => .error .empty
  | ['+'] => .error .badDigit
  | '+' :: rest => boundedFrom limit .tooLarge 0 rest
  | cs => boundedFrom limit .tooLarge 0 cs

/-- A number from `-(limit + 1)` to `limit` after at most one sign. -/
def boundedInt (limit : Nat) : List Char → Except Fault Int
  | ['-'] => .error .badDigit
  | '-' :: rest =>
    (boundedFrom (limit + 1) .tooSmall 0 rest).map fun n => -Int.ofNat n
  | cs => (boundedNat limit cs).map Int.ofNat

end ChainIndex.Digits
