import ChainIndex.Chain.Fee
import Mathlib.Algebra.Order.Floor.Semifield
import Mathlib.Data.Rat.Floor
import Mathlib.Tactic.NormNum
import Mathlib.Tactic.Ring

/-!
# What processing costs

A schedule charges the gas for moving a balance at the full price, and what goes beyond at the price
times the modifier, rounded down. That gas is counted in 64 bits is no matter: a limit that a
counter cannot show is above all gas that can be used. That prices are is one, since a price for
processing that a counter cannot show counts as zero, and processing is free. So a schedule charges
what integers without bound would give if and only if this price fits or nothing is processed
(`FeeSchedule.fee_eq_exactFee_iff`). A modifier that makes no price higher keeps all prices in
bounds.

The fee in integers without bound is stated with the modifier as a rational number, so that it says
what is meant and not how it is computed; `DecimalFraction.timesFloor_eq_floor` is the bridge. The
two fees are then compared in two steps. Counting gas in 64 bits turns out to change nothing, since
the limit is only ever compared with gas that is itself 64 bits wide. What is left is the price.
-/

namespace ChainIndex

/-! ### Decimal fractions -/

namespace DecimalFraction

variable {f : DecimalFraction}

/-- The rational number that a decimal fraction stands for. -/
def value (f : DecimalFraction) : ℚ :=
  f.unscaled * (10 : ℚ) ^ (-f.scale)

theorem value_eq_div (f : DecimalFraction) :
    f.value = f.unscaled * 10 ^ (-f.scale).toNat / 10 ^ f.scale.toNat := by
  have hscale : -f.scale = ((-f.scale).toNat : ℤ) - (f.scale.toNat : ℤ) := by omega
  rw [value, mul_div_assoc, ← zpow_natCast, ← zpow_natCast, ← zpow_sub₀ (by norm_num), ← hscale]

theorem unscaled_nonneg_iff (f : DecimalFraction) : 0 ≤ f.unscaled ↔ 0 ≤ f.value := by
  have hpos : (0 : ℚ) < 10 ^ (-f.scale) := zpow_pos (by norm_num) _
  rw [value, mul_nonneg_iff_of_pos_right hpos, Int.cast_nonneg_iff]

/-- The integral part of a product is the product rounded down. -/
theorem timesFloor_eq_floor (h : 0 ≤ f.value) (n : Nat) :
    f.timesFloor n = ⌊(n : ℚ) * f.value⌋₊ := by
  have hunscaled : (f.unscaled : ℚ) = (f.unscaled.toNat : ℕ) := by
    exact_mod_cast (Int.toNat_of_nonneg (f.unscaled_nonneg_iff.mpr h)).symm
  have hquotient : (n : ℚ) * f.value =
      ((n * f.unscaled.toNat * 10 ^ (-f.scale).toNat : ℕ) : ℚ) / (10 ^ f.scale.toNat : ℕ) := by
    push_cast
    rw [value_eq_div, hunscaled]
    ring
  rw [hquotient, Nat.floor_div_eq_div]
  rfl

end DecimalFraction

namespace FeeSchedule

variable {s : FeeSchedule}

/-! ### Fees in integers without bound -/

/-- The gas for moving a balance along with data, however much it is. -/
def exactMoveBalanceGas (s : FeeSchedule) (data : Bytes) : Nat :=
  s.minGasLimit.toNat + data.length * s.gasPerDataByte.toNat

/-- The price of processing gas, however high it is. -/
def exactProcessingPrice (s : FeeSchedule) (gasPrice : UInt64) : Nat :=
  ⌊(gasPrice.toNat : ℚ) * s.priceModifier.value⌋₊

/-- The fee for gas used by a record with data, however high it is. -/
def exactFee (s : FeeSchedule) (gasPrice gasUsed : UInt64) (data : Bytes) : Nat :=
  let moving := s.exactMoveBalanceGas data
  if gasUsed.toNat ≤ moving then gasPrice.toNat * gasUsed.toNat
  else gasPrice.toNat * moving + (gasUsed.toNat - moving) * s.exactProcessingPrice gasPrice

/-- More gas than a counter can show is as much as the counter can show. -/
theorem moveBalanceGas_eq_min (s : FeeSchedule) (data : Bytes) :
    s.moveBalanceGas data = min (s.exactMoveBalanceGas data) 0xFFFFFFFFFFFFFFFF := by
  show min (_ + min _ _) _ = min (_ + _) _
  omega

/-- A price that a counter cannot show is zero. -/
theorem processingPrice_eq_ite (h : 0 ≤ s.priceModifier.value) (gasPrice : UInt64) :
    s.processingPrice gasPrice =
      if s.exactProcessingPrice gasPrice < 2 ^ 64 then s.exactProcessingPrice gasPrice else 0 := by
  have hunscaled : ¬ s.priceModifier.unscaled < 0 :=
    Int.not_lt.mpr (s.priceModifier.unscaled_nonneg_iff.mpr h)
  have hbound : (0x10000000000000000 : Nat) = 2 ^ 64 := by norm_num
  rw [processingPrice, if_neg hunscaled, DecimalFraction.timesFloor64?_eq,
    DecimalFraction.timesFloor_eq_floor h, exactProcessingPrice, hbound]
  split <;> rfl

/-- Gas that is counted in 64 bits is charged as if it were counted without bound. -/
theorem fee_eq_ite (s : FeeSchedule) (gasPrice gasUsed : UInt64) (data : Bytes) :
    s.fee gasPrice gasUsed data =
      if gasUsed.toNat ≤ s.exactMoveBalanceGas data then gasPrice.toNat * gasUsed.toNat
      else
        gasPrice.toNat * s.exactMoveBalanceGas data +
          (gasUsed.toNat - s.exactMoveBalanceGas data) * s.processingPrice gasPrice := by
  have hused := gasUsed.toNat_lt
  have hmoving := s.moveBalanceGas_eq_min data
  -- either the limit is exact, or it stands at the top, and no gas is processed on either side
  unfold fee
  by_cases hle : gasUsed.toNat ≤ s.exactMoveBalanceGas data
  · rw [if_pos hle, if_pos (by omega)]
  · have hexact : s.moveBalanceGas data = s.exactMoveBalanceGas data := by omega
    rw [if_neg hle, hexact, if_neg hle]

/-! ### Prices in and out of bounds -/

/-- Nothing is processed, or the price of processing is one that a counter can show. -/
def InBounds (s : FeeSchedule) (gasPrice gasUsed : UInt64) (data : Bytes) : Prop :=
  gasUsed.toNat ≤ s.exactMoveBalanceGas data ∨ s.exactProcessingPrice gasPrice < 2 ^ 64

/-- A modifier of at most one makes no price higher. -/
theorem inBounds_of_value_le_one (h : s.priceModifier.value ≤ 1) (gasPrice gasUsed : UInt64)
    (data : Bytes) : s.InBounds gasPrice gasUsed data := by
  have hle : (gasPrice.toNat : ℚ) * s.priceModifier.value ≤ gasPrice.toNat :=
    mul_le_of_le_one_right (Nat.cast_nonneg _) h
  exact .inr ((Nat.floor_le_of_le hle).trans_lt gasPrice.toNat_lt)

variable {gasPrice gasUsed : UInt64} {data : Bytes}

theorem fee_eq_exactFee_of_inBounds (h : 0 ≤ s.priceModifier.value)
    (hbounds : s.InBounds gasPrice gasUsed data) :
    s.fee gasPrice gasUsed data = s.exactFee gasPrice gasUsed data := by
  rw [fee_eq_ite, exactFee]
  rcases hbounds with hmoving | hprice
  · rw [if_pos hmoving, if_pos hmoving]
  · rw [processingPrice_eq_ite h, if_pos hprice]

/-- Out of bounds only the gas for moving a balance is charged. -/
theorem fee_of_not_inBounds (h : 0 ≤ s.priceModifier.value)
    (hbounds : ¬ s.InBounds gasPrice gasUsed data) :
    s.fee gasPrice gasUsed data = gasPrice.toNat * s.exactMoveBalanceGas data := by
  obtain ⟨hmoving, hprice⟩ := not_or.mp hbounds
  rw [fee_eq_ite, if_neg hmoving, processingPrice_eq_ite h, if_neg hprice, Nat.mul_zero,
    Nat.add_zero]

/-- Out of bounds gas is processed, at a price that is not zero. -/
theorem lt_exactFee_of_not_inBounds (hbounds : ¬ s.InBounds gasPrice gasUsed data) :
    gasPrice.toNat * s.exactMoveBalanceGas data < s.exactFee gasPrice gasUsed data := by
  obtain ⟨hmoving, hprice⟩ := not_or.mp hbounds
  rw [exactFee, if_neg hmoving]
  exact Nat.lt_add_of_pos_right (Nat.mul_pos (by omega) (by omega))

/-- A fee is what integers without bound would give if and only if nothing is processed or the price
of processing is one that a counter can show. Otherwise it is that of moving a balance. With a
modifier of at most one a fee is always what integers without bound would give. -/
theorem fee_eq_exactFee_iff (s : FeeSchedule) (h : 0 ≤ s.priceModifier.value)
    (gasPrice gasUsed : UInt64) (data : Bytes) :
    (s.fee gasPrice gasUsed data = s.exactFee gasPrice gasUsed data ↔
        gasUsed.toNat ≤ s.exactMoveBalanceGas data ∨ s.exactProcessingPrice gasPrice < 2 ^ 64) ∧
      (s.fee gasPrice gasUsed data ≠ s.exactFee gasPrice gasUsed data →
        s.fee gasPrice gasUsed data = gasPrice.toNat * s.exactMoveBalanceGas data) ∧
      (s.priceModifier.value ≤ 1 →
        s.fee gasPrice gasUsed data = s.exactFee gasPrice gasUsed data) := by
  have hiff : s.fee gasPrice gasUsed data = s.exactFee gasPrice gasUsed data ↔
      s.InBounds gasPrice gasUsed data := by
    refine ⟨fun heq => ?_, fee_eq_exactFee_of_inBounds h⟩
    by_contra hbounds
    have hlt := lt_exactFee_of_not_inBounds hbounds
    rw [← heq, fee_of_not_inBounds h hbounds] at hlt
    exact Nat.lt_irrefl _ hlt
  refine ⟨hiff, fun hne => fee_of_not_inBounds h (mt hiff.mpr hne), fun hone => ?_⟩
  exact hiff.mpr (inBounds_of_value_le_one hone gasPrice gasUsed data)

/-- At the highest price, a modifier of ten makes processing free. -/
theorem fee_eq_exactFee_iff_of_modifier_ten :
    let s : FeeSchedule := ⟨50000, 1500, ⟨10, 0⟩⟩
    let price : UInt64 := 0xFFFFFFFFFFFFFFFF
    0 ≤ s.priceModifier.value ∧ s.fee price 50001 [] = price.toNat * 50000 ∧
      s.exactFee price 50001 [] = price.toNat * 50000 + price.toNat * 10 := by
  intro s price
  have hvalue : s.priceModifier.value = (10 : ℕ) := by norm_num [s, DecimalFraction.value]
  have hnonneg : 0 ≤ s.priceModifier.value := by
    rw [hvalue]
    exact Nat.cast_nonneg 10
  have hprice : s.exactProcessingPrice price = price.toNat * 10 := by
    rw [exactProcessingPrice, hvalue, ← Nat.cast_mul, Nat.floor_natCast]
  have hexact : s.exactFee price 50001 [] = price.toNat * 50000 + price.toNat * 10 := by
    rw [exactFee, hprice]
    decide
  have hfee := fee_eq_exactFee_iff s hnonneg price 50001 []
  refine ⟨hnonneg, hfee.2.1 fun heq => ?_, hexact⟩
  -- gas is processed, and its price has more than 64 bits
  rcases hfee.1.mp heq with hmoving | hbound
  · exact absurd hmoving (by decide)
  · rw [hprice] at hbound
    exact absurd hbound (by decide)

end FeeSchedule

end ChainIndex
