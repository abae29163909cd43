/-!
# Doubles without a sign

Amounts shown as floating point are doubles that are never negative, so a value here is the lower
sixty-three bits of one. Arithmetic is exact arithmetic on ratios of natural numbers followed by
one rounding to the nearest double, a tie going to the even neighbour; past the largest double
lies infinity. An integer of many words is rounded by its leading bits.
-/

namespace ChainIndex

/-- A double that is not negative, by its bits: eleven of exponent, fifty-two of fraction. -/
structure Binary64 where
  bits : Nat
deriving Repr, DecidableEq

namespace Binary64

/-- Zero. -/
def zero : Binary64 := ⟨0⟩

instance : Inhabited Binary64 := ⟨zero⟩

/-- What every number past the largest double becomes. -/
def infinity : Binary64 := ⟨0x7FF0000000000000⟩

/-- Whether the value is not a number of its own but infinity. -/
def isInfinite (x : Binary64) : Bool :=
  infinity.bits ≤ x.bits

/-- The number of fractions that share an exponent: two to the power of fifty-two. -/
def fractions : Nat := 0x10000000000000

/-- The integer that, times two to the power of `exponent`, is the value. -/
def mantissa (x : Binary64) : Nat :=
  if x.bits < fractions then x.bits else x.bits % fractions + fractions

/-- The power of two that goes with `mantissa`. -/
def exponent (x : Binary64) : Int :=
  max (Int.ofNat (x.bits / fractions)) 1 - 1075

/-- The integer nearest to a ratio, the even one of two equally near. -/
def nearest (num den : Nat) : Nat :=
  let q := num / den
  let twice := 2 * (num % den)
  if twice < den ∨ (twice = den ∧ q % 2 = 0) then q else q + 1

/-- `num / den * 2 ^ e` as a ratio. -/
def scaled (num den : Nat) (e : Int) : Nat × Nat :=
  if e < 0 then (num, den * Nat.pow 2 (-e).toNat) else (num * Nat.pow 2 e.toNat, den)

/-- The double nearest to a ratio. The unit in the last place is the power of two that leaves
fifty-three bits, but never below the smallest double. -/
def ofRatio (num den : Nat) : Binary64 :=
  if num = 0 then zero
  else
    let guess := Int.ofNat num.log2 - Int.ofNat den.log2
    let (n, d) := scaled num den (-guess)
    let unit := max (-1074) (if n < d then guess - 53 else guess - 52)
    let (n, d) := scaled num den (-unit)
    let bits := (unit + 1074).toNat * fractions + nearest n d
    if bits < infinity.bits then ⟨bits⟩ else infinity

/-- The double nearest to a natural number. -/
def ofNat (n : Nat) : Binary64 :=
  ofRatio n 1

/-- The double nearest to `num / den * 2 ^ e`. -/
def ofScaled (num den : Nat) (e : Int) : Binary64 :=
  let (n, d) := scaled num den e
  ofRatio n d

/-- The leading sixty-four bits of a number, or all of a number that has no more. Their last bit
also stands for what they leave behind: in a row of words of sixty-four bits, of which the leading
one may be shorter, it is set if a word behind the leading one has a bit among its lowest ones, as
many as the leading word has. In a row of two words that is all that is left behind. -/
def leadingBits (n : Nat) : Nat :=
  let width := n.log2 % 64 + 1
  let behind := (List.range (n.log2 / 64)).map fun i => n >>> (64 * i)
  let leading := n >>> (n.log2 - 63)
  if behind.any fun word => word % Nat.pow 2 width != 0 then leading ||| 1 else leading

/-- The double nearest to the leading bits of a number, at their place. Up to two words it is the
double nearest to the number; a longer number just above the middle of two doubles may pass for
the middle. -/
def ofLeadingBits (n : Nat) : Binary64 :=
  ofScaled (leadingBits n) 1 (Int.ofNat (n.log2 - 63))

/-- A number of one word is all leading bits. -/
theorem leadingBits_of_lt {n : Nat} (h : n < 0x10000000000000000) : leadingBits n = n := by
  have hlog : n.log2 < 64 := by
    by_cases hn : n = 0
    · rw [hn]; decide
    · exact (Nat.log2_lt hn).2 h
  have hwords : n.log2 / 64 = 0 := by omega
  have hshift : n.log2 - 63 = 0 := by omega
  simp [leadingBits, hwords, hshift]

/-- The double nearest to the product; infinity swallows every factor. -/
def mul (x y : Binary64) : Binary64 :=
  if x.isInfinite ∨ y.isInfinite then infinity
  else ofScaled (x.mantissa * y.mantissa) 1 (x.exponent + y.exponent)

/-- The double nearest to the quotient; nothing is left of a finite value divided by infinity. -/
def div (x y : Binary64) : Binary64 :=
  if x.isInfinite then infinity
  else if y.isInfinite then zero
  else if y.mantissa = 0 then infinity
  else ofScaled x.mantissa y.mantissa (x.exponent - y.exponent)

/-- The integer nearest to the value, the even one of two equally near. -/
def roundEven (x : Binary64) : Binary64 :=
  if x.exponent < 0 then ofNat (nearest x.mantissa (Nat.pow 2 (-x.exponent).toNat)) else x

/-- Ten to the power of `n` by repeated squaring, each product rounded: what is left of the
exponent is halved while the base is squared. -/
def powSquaring (result base : Binary64) (n : Nat) : Binary64 :=
  if n = 0 then result
  else powSquaring (if n % 2 = 1 then result.mul base else result) (base.mul base) (n / 2)

/-- Ten to the power of `n`, rounded at each squaring and each product. -/
def powTen (n : Nat) : Binary64 :=
  powSquaring (ofNat 1) (ofNat 10) n

end Binary64

end ChainIndex
