import ChainIndex.Error
import ChainIndex.Number.Binary64
import ChainIndex.Number.Digits

/-!
# Amounts

An amount is an integer of any size in decimal text. Beside the text goes a double for range
queries: scaled by the decimals of the currency, rounded half to even at a fixed number of
decimals, and never negative.
-/

namespace ChainIndex

/-- The integer that a decimal text stands for. -/
def readAmount (s : String) : Except ConversionError Int :=
  match Digits.int? s.toList with
  | some n => .ok n
  | none => .error .notAnInteger

/-- The integer that a decimal text stands for, zero if none. -/
def amountOrZero (s : String) : Int :=
  (Digits.int? s.toList).getD 0

/-- Amounts wider than this many bytes have no floating-point form. -/
def maxAmountBytes : Nat := 100

/-- The scale of a currency: the double by which amounts are divided. -/
structure AmountScale where
  divisor : Binary64
deriving Repr, DecidableEq

namespace AmountScale

/-- The scale of a currency with a number of decimals. -/
def ofDenomination (decimals : Int32) : Except ConversionError AmountScale :=
  if decimals < 0 then .error .negativeDenomination
  else .ok ⟨Binary64.powTen decimals.toInt.toNat⟩

/-- An amount with `decimals` decimals kept; nothing negative is shown. -/
def shown (s : AmountScale) (decimals : Nat) (amount : Int) : Except ConversionError Binary64 :=
  if amount = 0 then .ok .zero
  else if maxAmountBytes < (amount.natAbs.log2 + 8) / 8 then .error .valueTooBig
  else if amount < 0 then .ok .zero
  else
    let precision := Binary64.powTen decimals
    let scaled := (Binary64.ofLeadingBits amount.toNat).div s.divisor
    let rounded := ((scaled.mul precision).roundEven).div precision
    if rounded.isInfinite then .error .valueTooBig else .ok rounded

/-- A balance of the currency, with ten decimals. -/
def showBalance (s : AmountScale) (amount : Int) : Except ConversionError Binary64 :=
  s.shown 10 amount

/-- A token value, with eighteen decimals. -/
def showTokenValue (s : AmountScale) (amount : Int) : Except ConversionError Binary64 :=
  s.shown 18 amount

/-- A balance of the currency given as text. -/
def readBalance (s : AmountScale) (text : String) : Except ConversionError Binary64 :=
  readAmount text >>= s.showBalance

/-- Token values given as texts; the first bad one is the answer for all. -/
def readTokenValues (s : AmountScale) (texts : List String) :
    Except ConversionError (List Binary64) :=
  texts.mapM fun text => readAmount text >>= s.showTokenValue

end AmountScale

end ChainIndex
