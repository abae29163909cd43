import ChainIndex.Bytes
import ChainIndex.Config
import ChainIndex.Number.Digits

/-!
# Fees

Moving a balance costs gas by the size of the data, at the full price. The gas that goes beyond
is for processing, at the price times the modifier of the network.
-/

namespace ChainIndex

/-- A decimal fraction: `unscaled` divided by ten to the power of `scale`. -/
structure DecimalFraction where
  unscaled : Int
  scale : Int
deriving Repr, DecidableEq

namespace DecimalFraction

/-- The digits of a decimal number without exponent and the number of those after the point; a
point at the very end counts for nothing. -/
def splitPoint (cs : List Char) : List Char × Nat :=
  let front := cs.takeWhile (· != '.')
  let back := (cs.dropWhile (· != '.')).drop 1
  (front ++ back, (back.filter (· != '_')).length)

/-- Reads an amount with an optional point, then an optional exponent. -/
def ofText? (s : String) : Option DecimalFraction := do
  let cs := s.toList
  let base := cs.takeWhile fun c => c != 'e' && c != 'E'
  let exponent ← match cs.dropWhile fun c => c != 'e' && c != 'E' with
    | [] => some 0
    | _ :: digits => (Digits.boundedInt 0x7FFFFFFFFFFFFFFFFFFFFFFFFFFFFFFF digits).toOption
  let (digits, places) := splitPoint base
  let scale := Int.ofNat places - exponent
  if scale < -0x8000000000000000 ∨ 0x8000000000000000 ≤ scale then none
  else
    let unscaled ← Digits.int? digits
    some ⟨unscaled, scale⟩

/-- The integral part of a natural number times a fraction that is not negative. -/
def timesFloor (f : DecimalFraction) (n : Nat) : Nat :=
  n * f.unscaled.toNat * Nat.pow 10 (-f.scale).toNat / Nat.pow 10 f.scale.toNat

/-- The integral part of a natural number times a fraction that is not negative, if it has at most
64 bits. A factor of ten is more than three bits: a product with fewer than three bits for each
place after the point is below one, and one with too many zeros at its end is too long. Neither
needs the power of ten, which an exponent of a few digits can make larger than any memory. -/
def timesFloor64? (f : DecimalFraction) (n : Nat) : Option Nat :=
  let m := n * f.unscaled.toNat
  if m = 0 ∨ m.log2 < 3 * f.scale.toNat then some 0
  else if 64 ≤ 3 * (-f.scale).toNat then none
  else if f.timesFloor n < 0x10000000000000000 then some (f.timesFloor n)
  else none

/-- A power of ten has at least three bits for each factor. -/
theorem two_pow_le_ten_pow {k j : Nat} (h : k ≤ 3 * j) : Nat.pow 2 k ≤ Nat.pow 10 j :=
  Nat.le_trans (Nat.pow_le_pow_right (by decide) h)
    (Nat.le_trans (Nat.le_of_eq (Nat.pow_mul 2 3 j)) (Nat.pow_le_pow_left (by decide) j))

/-- Looking at the number of bits first changes no answer. -/
theorem timesFloor64?_eq (f : DecimalFraction) (n : Nat) :
    f.timesFloor64? n =
      if f.timesFloor n < 0x10000000000000000 then some (f.timesFloor n) else none := by
  unfold timesFloor64?
  dsimp only
  split
  · next h =>
    have hz : f.timesFloor n = 0 := by
      unfold timesFloor
      rcases h with h | h
      · rw [h, Nat.zero_mul, Nat.zero_div]
      · have hs : (-f.scale).toNat = 0 := by omega
        have hm : n * f.unscaled.toNat < Nat.pow 2 (3 * f.scale.toNat) :=
          Nat.lt_of_lt_of_le Nat.lt_log2_self (Nat.pow_le_pow_right (by decide) h)
        rw [hs]
        exact Nat.div_eq_of_lt (Nat.lt_of_le_of_lt (Nat.le_of_eq (Nat.mul_one _))
          (Nat.lt_of_lt_of_le hm (two_pow_le_ten_pow (Nat.le_refl _))))
    rw [hz]; rfl
  · next h =>
    split
    · next hzeros =>
      have hs : f.scale.toNat = 0 := by omega
      have hm : 1 ≤ n * f.unscaled.toNat := by omega
      have hbig : 0x10000000000000000 ≤ f.timesFloor n := by
        unfold timesFloor
        rw [hs]
        have := Nat.mul_le_mul hm (two_pow_le_ten_pow hzeros)
        exact Nat.le_trans (Nat.le_trans (Nat.le_of_eq (by decide)) this)
          (Nat.le_of_eq (Nat.div_one _).symm)
      rw [if_neg (Nat.not_lt.2 hbig)]
    · rfl

end DecimalFraction

/-- What gas costs in a network. -/
structure FeeSchedule where
  minGasLimit : UInt64
  gasPerDataByte : UInt64
  priceModifier : DecimalFraction
deriving Repr, DecidableEq

namespace FeeSchedule

/-- The schedule that settings describe. -/
def ofConfig (c : EconomicsConfig) : Except Error FeeSchedule :=
  match DecimalFraction.ofText? c.gasPriceModifier with
  | some m => .ok ⟨c.minGasLimit, c.gasPerDataByte, m⟩
  | none => .error (.invalidConfig ("invalid gas price modifier " ++ c.gasPriceModifier
      ++ ": not a decimal number"))

/-- The gas for moving a balance along with data, at most what a counter can show. -/
def moveBalanceGas (s : FeeSchedule) (data : Bytes) : Nat :=
  let limit := 0xFFFFFFFFFFFFFFFF
  min (s.minGasLimit.toNat + min (data.length * s.gasPerDataByte.toNat) limit) limit

/-- The price of processing gas: the gas price times the modifier, rounded down. A price that is
negative or that a counter cannot show is zero. -/
def processingPrice (s : FeeSchedule) (gasPrice : UInt64) : Nat :=
  if s.priceModifier.unscaled < 0 then 0
  else (s.priceModifier.timesFloor64? gasPrice.toNat).getD 0

/-- The fee for gas used by a record with data. -/
def fee (s : FeeSchedule) (gasPrice gasUsed : UInt64) (data : Bytes) : Nat :=
  let moving := s.moveBalanceGas data
  if gasUsed.toNat ≤ moving then gasPrice.toNat * gasUsed.toNat
  else gasPrice.toNat * moving + (gasUsed.toNat - moving) * s.processingPrice gasPrice

end FeeSchedule

end ChainIndex
