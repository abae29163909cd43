/-!
# Byte strings

A byte string is a list of bytes: hashes, public keys, call data and topics are all of this type.
Besides the numbers that a byte string holds in big-endian order, the module has the two searches
that call data needs. `List.splitOn` of the core library does the splitting.
-/

namespace ChainIndex

/-- A byte string, first byte first. -/
abbrev Bytes := List UInt8

namespace Bytes

/-- The unsigned big-endian number that the bytes hold; no byte at all holds zero. -/
def toNat (bs : Bytes) : Nat :=
  bs.foldl (fun n b => 256 * n + b.toNat) 0

/-- The fewest big-endian bytes that hold `n`; zero needs none. -/
def ofNat (n : Nat) : Bytes :=
  if n = 0 then [] else ofNat (n / 256) ++ [UInt8.ofNat n]

/-- The number that the bytes hold, or the largest one a 64-bit counter can show. -/
def toUInt64 (bs : Bytes) : UInt64 :=
  UInt64.ofNat (min (toNat bs) 0xFFFFFFFFFFFFFFFF)

/-- Whether `part` occurs somewhere inside `bs`. -/
def hasPart (part : Bytes) : Bytes → Bool
  | [] => part.isEmpty
  | b :: rest => part.isPrefixOf (b :: rest) || hasPart part rest

/-- Whether all bytes are below 128. -/
def isAscii (bs : Bytes) : Bool :=
  bs.all (· < 128)

/-- Whether all bytes are zero. -/
def isZero (bs : Bytes) : Bool :=
  bs.all (· == 0)

@[simp] theorem toNat_nil : toNat [] = 0 := rfl

theorem toNat_append_singleton (bs : Bytes) (b : UInt8) :
    toNat (bs ++ [b]) = 256 * toNat bs + b.toNat := by
  simp [toNat, List.foldl_append]

/-- Writing a number and reading it back changes nothing. -/
@[simp] theorem toNat_ofNat (n : Nat) : toNat (ofNat n) = n := by
  induction n using Nat.strongRecOn with
  | _ n ih =>
    unfold ofNat
    split
    · simp_all
    · rw [toNat_append_singleton, ih (n / 256) (by omega)]
      simp
      omega

/-- The first byte of a shortest form is not zero. -/
theorem ofNat_head_ne_zero (n : Nat) : (ofNat n).head? ≠ some 0 := by
  induction n using Nat.strongRecOn with
  | _ n ih =>
    unfold ofNat
    split
    · simp
    · rename_i hn
      by_cases h : n / 256 = 0
      · have hlt : n < 256 := by omega
        rw [h]
        simp only [ofNat, ↓reduceIte, List.nil_append, List.head?_cons, ne_eq, Option.some.injEq]
        intro h0
        have := congrArg UInt8.toNat h0
        simp at this
        omega
      · have := ih (n / 256) (by omega)
        cases hb : ofNat (n / 256) with
        | nil =>
          unfold ofNat at hb
          simp [h] at hb
        | cons b rest => simpa [hb] using this

end Bytes

end ChainIndex
