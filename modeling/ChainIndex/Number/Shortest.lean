import ChainIndex.Number.Binary64
import ChainIndex.Number.Digits

/-!
# The shortest decimal text of a double

A double is shown by the fewest digits that read back as it, and of those by the nearest. The
numbers that read back as a double are an interval around it, whose ends count when the mantissa
is even. Digits stand in front of a point up to sixteen of them, then an exponent takes over.
-/

namespace ChainIndex

/-- A decimal number: `digits` times ten to the power of `exponent`. -/
structure Decimal where
  digits : Nat
  exponent : Int
deriving Repr, DecidableEq

namespace Decimal

/-- `m * 2 ^ e` in units of `10 ^ p`, as a ratio. -/
def inUnits (m : Nat) (e p : Int) : Nat × Nat :=
  let (n, d) := Binary64.scaled m 1 e
  if p < 0 then (n * Nat.pow 10 (-p).toNat, d) else (n, d * Nat.pow 10 p.toNat)

/-- Whether `n` units of `10 ^ p` read back as `m * 2 ^ e`. Below a power of two the doubles lie
twice as close. -/
def readsBack (m : Nat) (e p : Int) (n : Nat) : Bool :=
  let close := m = Binary64.fractions ∧ -1074 < e
  let (low, d) := inUnits (if close then 4 * m - 1 else 4 * m - 2) (e - 2) p
  let (high, d') := inUnits (4 * m + 2) (e - 2) p
  if m % 2 = 0 then low ≤ n * d ∧ n * d' ≤ high else low < n * d ∧ n * d' < high

/-- The neighbours of `m * 2 ^ e` on the grid of `10 ^ p`, the nearer one first. -/
def neighbours (m : Nat) (e p : Int) : List Nat :=
  let (n, d) := inUnits m e p
  let near := Binary64.nearest n d
  if near = n / d then [near, near + 1] else [near, n / d]

/-- The first hit on grids that get finer, starting at `10 ^ p`. -/
def search (m : Nat) (e : Int) : Nat → Int → Decimal
  | 0, p => ⟨(neighbours m e p).headD 0, p⟩
  | fuel + 1, p =>
    match (neighbours m e p).find? (readsBack m e p) with
    | some n => ⟨n, p⟩
    | none => search m e fuel (p - 1)

/-- A decimal estimate, never too low, of the power of ten of `2 ^ n`. -/
def powerAbove (n : Int) : Int :=
  n * 30103 / 100000 + 1

/-- The shortest decimal number that reads back as a finite double; seventeen digits always do. -/
def shortest (x : Binary64) : Decimal :=
  if x.mantissa = 0 then ⟨0, 0⟩
  else
    search x.mantissa x.exponent 19
      (powerAbove (Int.ofNat x.mantissa.log2 + 1 + x.exponent))

/-- The number without zeros at the end of its digits. -/
def trimmed (d : Decimal) : Nat → Decimal
  | 0 => d
  | fuel + 1 =>
    if d.digits ≠ 0 ∧ d.digits % 10 = 0 then trimmed ⟨d.digits / 10, d.exponent + 1⟩ fuel else d

/-- The text of a decimal number: a point always, an exponent from `1e16` on and below `1e-5`. -/
def text (d : Decimal) : String :=
  if d.digits = 0 then "0.0"
  else
    let d := d.trimmed 400
    let digits := Nat.toDigits 10 d.digits
    let count := Int.ofNat digits.length
    let point := count + d.exponent
    if 0 ≤ d.exponent ∧ point ≤ 16 then
      String.ofList (digits ++ List.replicate d.exponent.toNat '0') ++ ".0"
    else if 0 < point ∧ point ≤ 16 then
      String.ofList (digits.take point.toNat) ++ "." ++ String.ofList (digits.drop point.toNat)
    else if -5 < point ∧ point ≤ 0 then
      "0." ++ String.ofList (List.replicate (-point).toNat '0' ++ digits)
    else
      let front := digits.take 1
      let back := digits.drop 1
      String.ofList (if back.isEmpty then front else front ++ '.' :: back) ++ "e"
        ++ Digits.ofInt (point - 1)

end Decimal

end ChainIndex
