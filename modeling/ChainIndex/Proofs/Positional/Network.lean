import ChainIndex.Chain.Network
import ChainIndex.Proofs.Positional

/-!
# Keys and fees by position

The front of a key tells a contract and its last bytes tell a shard. Where the gas for moving a
balance is taken off the gas used, there is as much of it.

The number of a shard is put together byte by byte in 32 bits, and a key may have more bytes than
fit. Bits that are shifted out are lost on purpose; but the byte is then added, and this cannot
overflow, since the low bits have just become zero (`shiftIn_ofNat`).
-/

namespace ChainIndex.Positional

/-- The sum of two numbers of 32 bits. -/
def plus (m n : UInt32) : Except Misread UInt32 :=
  if m.toNat + n.toNat < 0x100000000 then .ok (m + n) else .error .overflow

/-- Whether a public key is that of a contract. -/
def isContractKey (key : Bytes) : Except Misread Bool := do
  if key.length ≤ 8 + 2 then return false
  let front ← front key 8
  return Bytes.isZero front

@[simp]
theorem isContractKey_eq (key : Bytes) :
    isContractKey key = .ok (ChainIndex.isContractKey key) := by
  unfold isContractKey ChainIndex.isContractKey
  by_cases h : key.length ≤ 10
  · simp [h, Nat.not_lt.mpr h]
  · have hfront : front key 8 = .ok (key.take 8) := front_of_le (by omega)
    simp [h, hfront, Nat.not_le.mp h]

/-! ### Shards -/

/-- A number with one more byte at its end. What is shifted out is lost. -/
def shiftIn (n : UInt32) (b : UInt8) : Except Misread UInt32 :=
  plus (n <<< 8) b.toUInt32

/-- The bits that are shifted in are zero, so there is room for a byte. -/
theorem shiftIn_ofNat (n : Nat) (b : UInt8) :
    shiftIn (UInt32.ofNat n) b = .ok (UInt32.ofNat (256 * n + b.toNat)) := by
  have hshift : (UInt32.ofNat n <<< 8).toNat = 256 * n % 2 ^ 32 := by
    simp [UInt32.toNat_shiftLeft, Nat.shiftLeft_eq, Nat.mul_comm]
  have hbyte : b.toUInt32.toNat = b.toNat := rfl
  have hlt : b.toNat < 256 := b.toNat_lt
  have hroom : 256 * n % 2 ^ 32 + b.toNat < 0x100000000 := by omega
  rw [shiftIn, plus, hshift, hbyte, if_pos hroom]
  refine congrArg Except.ok (UInt32.toNat_inj.mp ?_)
  rw [UInt32.toNat_add, hshift, hbyte, UInt32.toNat_ofNat']
  omega

theorem foldlM_shiftIn (bs : Bytes) (n : Nat) :
    bs.foldlM shiftIn (UInt32.ofNat n) =
      .ok (UInt32.ofNat (bs.foldl (fun n b => 256 * n + b.toNat) n)) := by
  induction bs generalizing n with
  | nil => rfl
  | cons b bs ih => rw [List.foldlM_cons, shiftIn_ofNat, ok_bind, ih, List.foldl_cons]

/-- The shard of a key. -/
def shardOf (s : Sharding) (key : Bytes) : Except Misread UInt32 := do
  let tail ← back key (key.length - s.tailLength)
  let isContract ← isContractKey key
  if isContract && tail == [255] then return metachainShard
  let n ← tail.foldlM shiftIn 0
  let shard := n &&& s.wideMask
  let last ← minus s.count.toNat 1
  if last < shard.toNat then return n &&& s.narrowMask
  return shard

@[simp]
theorem shardOf_eq (s : Sharding) (key : Bytes) : shardOf s key = .ok (s.shardOf key) := by
  have hcount : 1 ≤ s.count.toNat :=
    Nat.one_le_iff_ne_zero.mpr fun h => s.count_ne_zero (UInt32.toNat_inj.mp h)
  have hone : (1 : UInt32) ≤ s.count := hcount
  have hlast : ∀ shard : UInt32, s.count.toNat - 1 < shard.toNat ↔ s.count - 1 < shard := by
    intro shard
    rw [UInt32.lt_iff_toNat_lt, UInt32.toNat_sub_of_le _ _ hone]
    rfl
  have hfold : (s.tail key).foldlM shiftIn 0 = .ok (UInt32.ofNat (Bytes.toNat (s.tail key))) :=
    foldlM_shiftIn _ 0
  rw [shardOf, back_of_le (Nat.sub_le _ _), ok_bind, isContractKey_eq, ok_bind]
  -- a short key is its own tail, on both sides
  show (if (ChainIndex.isContractKey key && s.tail key == [255]) = true then _ else _) = _
  rw [Sharding.shardOf]
  split
  · rfl
  · have htail : key.drop (key.length - s.tailLength) = s.tail key := rfl
    rw [htail, hfold, ok_bind, minus_of_le hcount, ok_bind]
    simp only [hlast, pure_eq_ok]
    split <;> rfl

/-! ### Fees -/

/-- The fee for gas used by a record with data. -/
def fee (s : FeeSchedule) (gasPrice gasUsed : UInt64) (data : Bytes) : Except Misread Nat := do
  let moving := s.moveBalanceGas data
  if gasUsed.toNat ≤ moving then return gasPrice.toNat * gasUsed.toNat
  let processing ← minus gasUsed.toNat moving
  return gasPrice.toNat * moving + processing * s.processingPrice gasPrice

theorem fee_eq (s : FeeSchedule) (gasPrice gasUsed : UInt64) (data : Bytes) :
    fee s gasPrice gasUsed data = .ok (s.fee gasPrice gasUsed data) := by
  unfold fee FeeSchedule.fee
  dsimp only
  split
  · rfl
  · next h => rw [minus_of_le (Nat.le_of_not_le h), ok_bind, pure_eq_ok]

end ChainIndex.Positional
