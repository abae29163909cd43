import ChainIndex.Chain.Sharding
import Mathlib.Data.Nat.Bitwise

/-!
# Where keys live

Every key lives in the metachain or in one of the shards, whatever bytes it has
(`Sharding.shardOf_lt_or_eq`). What else one expects of shards depends on how many there are
(`Sharding.shardOf_places`). A contract whose last bytes are all 255 lives in the metachain only if
one byte names every shard. Every shard has keys of users as long as fewer than 32 bits name every
shard; with all 32 the wide mask is empty, and all keys live in the first shard.

The masks are turned into remainders first, and from there on all is arithmetic: the wide remainder
may be past the last shard, the narrow one never is, since a power of two with one bit less is at
most the number of the last shard. Whether the masks are what they should be is a matter of one
shift, and `Sharding.bits_lt_iff` says for which numbers of shards it goes wrong.
-/

namespace ChainIndex

/-- A key of a user: of full length, and not that of a contract. -/
def IsUserKey (key : Bytes) : Prop :=
  key.length = 32 ∧ isContractKey key = false

namespace Sharding

variable {s : Sharding}

/-- A key of a contract whose last bytes, as many as name a shard, are all 255. -/
def IsSystemKey (s : Sharding) (key : Bytes) : Prop :=
  isContractKey key = true ∧ ∀ b ∈ s.tail key, b = 255

theorem count_pos (s : Sharding) : 0 < s.count.toNat :=
  Nat.pos_of_ne_zero fun h => s.count_ne_zero (UInt32.toNat_inj.mp h)

theorem toNat_count_sub_one (s : Sharding) : (s.count - 1).toNat = s.count.toNat - 1 :=
  UInt32.toNat_sub_of_le _ _ (UInt32.le_iff_toNat_le.mpr s.count_pos)

/-! ### Bits and masks -/

/-- The last shard needs no more bits than name a shard. -/
theorem lt_two_pow_bits (s : Sharding) : s.count.toNat - 1 < 2 ^ s.bits := by
  unfold bits
  split
  · next h => rw [h]; decide
  · rw [← toNat_count_sub_one]
    exact Nat.lt_log2_self

/-- Nor does it need fewer, unless it is the only shard. -/
theorem two_pow_bits_le (h : s.bits ≠ 0) : 2 ^ (s.bits - 1) ≤ s.count.toNat - 1 := by
  unfold bits at h ⊢
  split at h
  · exact absurd rfl h
  · next hcount =>
      rw [if_neg hcount, Nat.add_sub_cancel, ← toNat_count_sub_one]
      refine Nat.log2_self_le fun hzero => hcount ?_
      rw [toNat_count_sub_one] at hzero
      have hpos := s.count_pos
      exact UInt32.toNat_inj.mp (show s.count.toNat = 1 by omega)

theorem bits_le (s : Sharding) : s.bits ≤ 32 := by
  by_contra h
  have hle := two_pow_bits_le (s := s) (by omega)
  have hpow := Nat.pow_le_pow_right (n := 2) (by decide) (show 32 ≤ s.bits - 1 by omega)
  have hlt := s.count.toNat_lt
  omega

/-- All bits of a number are needed past the highest power of two. -/
theorem bits_lt_iff (s : Sharding) : s.bits < 32 ↔ s.count ≤ 0x80000000 := by
  rw [UInt32.le_iff_toNat_le]
  show s.bits < 32 ↔ s.count.toNat ≤ 0x80000000
  constructor
  · intro h
    have hlast := s.lt_two_pow_bits
    have hpow := Nat.pow_le_pow_right (n := 2) (by decide) (Nat.le_of_lt_succ h)
    omega
  · intro h
    by_contra hbits
    have hle := two_pow_bits_le (s := s) (by omega)
    have hpow := Nat.pow_le_pow_right (n := 2) (by decide) (show 31 ≤ s.bits - 1 by omega)
    omega

/-- A mask of low bits leaves a remainder. -/
theorem toNat_and_lowBits {k : Nat} (hk : k < 32) (n : UInt32) :
    (n &&& (((1 : UInt32) <<< UInt32.ofNat k) - 1)).toNat = n.toNat % 2 ^ k := by
  have hmask : ∀ k < 32, (((1 : UInt32) <<< UInt32.ofNat k) - 1).toNat = 2 ^ k - 1 := by decide
  rw [UInt32.toNat_and, hmask k hk, Nat.and_two_pow_sub_one_eq_mod]

theorem toNat_and_wideMask (n : UInt32) (h : s.bits < 32) :
    (n &&& s.wideMask).toNat = n.toNat % 2 ^ s.bits :=
  toNat_and_lowBits h n

theorem toNat_and_narrowMask (n : UInt32) (h : s.bits ≠ 0) :
    (n &&& s.narrowMask).toNat = n.toNat % 2 ^ (s.bits - 1) := by
  have hle := s.bits_le
  rw [narrowMask, if_neg h, toNat_and_lowBits (by omega)]

/-- A shift by the whole width is no shift, and leaves no bit of the mask. -/
theorem wideMask_eq_zero (h : ¬ s.bits < 32) : s.wideMask = 0 := by
  rw [wideMask, Nat.le_antisymm s.bits_le (Nat.not_lt.mp h)]
  decide

/-! ### The shard of a number -/

/-- The shard that the last bytes of a key name when they are read as a number. -/
def shardOfNumber (s : Sharding) (n : UInt32) : UInt32 :=
  if s.count - 1 < n &&& s.wideMask then n &&& s.narrowMask else n &&& s.wideMask

theorem shardOf_eq_ite (s : Sharding) (key : Bytes) :
    s.shardOf key =
      if isContractKey key && s.tail key == [255] then metachainShard
      else s.shardOfNumber (UInt32.ofNat (Bytes.toNat (s.tail key))) :=
  rfl

/-- With all bits in use the first shard is the only one that is named. -/
theorem shardOfNumber_eq_zero (h : ¬ s.bits < 32) (n : UInt32) : s.shardOfNumber n = 0 := by
  rw [shardOfNumber, wideMask_eq_zero h, UInt32.and_zero, if_neg (UInt32.not_lt.mpr UInt32.zero_le)]

/-- Every number names a shard. -/
theorem shardOfNumber_lt (s : Sharding) (n : UInt32) : s.shardOfNumber n < s.count := by
  by_cases hbits : s.bits < 32
  · unfold shardOfNumber
    simp only [UInt32.lt_iff_toNat_lt, toNat_count_sub_one, toNat_and_wideMask n hbits]
    have hpos := s.count_pos
    split
    · next h =>
        -- one bit less names a shard below the last one
        have hne : s.bits ≠ 0 := fun hzero => by simp [hzero, Nat.mod_one] at h
        have hmod := Nat.mod_lt n.toNat (Nat.two_pow_pos (s.bits - 1))
        have hle := two_pow_bits_le hne
        rw [toNat_and_narrowMask n hne]
        omega
    · next h =>
        rw [toNat_and_wideMask n hbits]
        omega
  · rw [shardOfNumber_eq_zero hbits, UInt32.lt_iff_toNat_lt]
    exact s.count_pos

/-- The number of a shard names this shard. -/
theorem shardOfNumber_of_lt (hbits : s.bits < 32) {n : UInt32} (h : n < s.count) :
    s.shardOfNumber n = n := by
  rw [UInt32.lt_iff_toNat_lt] at h
  have hlast := s.lt_two_pow_bits
  have hmod : n.toNat % 2 ^ s.bits = n.toNat := Nat.mod_eq_of_lt (by omega)
  have hwide : n &&& s.wideMask = n := by
    rw [← UInt32.toNat_inj, toNat_and_wideMask n hbits, hmod]
  rw [shardOfNumber, hwide, if_neg]
  rw [UInt32.lt_iff_toNat_lt, toNat_count_sub_one]
  omega

/-! ### The shard of a key -/

theorem tailLength_le (s : Sharding) : s.tailLength ≤ 4 := by
  unfold tailLength
  split_ifs <;> decide

theorem tailLength_eq_one_iff (s : Sharding) : s.tailLength = 1 ↔ s.count ≤ 256 := by
  unfold tailLength
  split_ifs <;> simp [*]

/-- The key of a contract has enough bytes to name a shard. -/
theorem length_tail_of_isContractKey {key : Bytes} (h : isContractKey key = true) :
    (s.tail key).length = s.tailLength := by
  rw [isContractKey, Bool.and_eq_true, decide_eq_true_eq] at h
  have hle := s.tailLength_le
  rw [tail, List.length_drop]
  omega

/-- The last byte of a contract is what counts, where one byte names every shard. -/
theorem tail_eq_iff {key : Bytes} (h : isContractKey key = true) :
    s.tail key = [255] ↔ s.IsSystemKey key ∧ s.count ≤ 256 := by
  rw [IsSystemKey, ← tailLength_eq_one_iff, ← length_tail_of_isContractKey h]
  constructor
  · intro htail
    rw [htail]
    exact ⟨⟨h, fun b hb => List.mem_singleton.mp hb⟩, rfl⟩
  · rintro ⟨⟨-, hall⟩, hone⟩
    obtain ⟨b, hb⟩ := List.length_eq_one_iff.mp hone
    rw [hb] at hall ⊢
    rw [hall b (List.mem_singleton_self b)]

theorem shardOfNumber_ne_metachainShard (s : Sharding) (n : UInt32) :
    s.shardOfNumber n ≠ metachainShard := by
  intro h
  have hlt := s.shardOfNumber_lt n
  rw [h, UInt32.lt_iff_toNat_lt] at hlt
  exact absurd s.count.toNat_lt (Nat.not_lt.mpr hlt)

theorem shardOf_eq_metachainShard_iff (s : Sharding) (key : Bytes) :
    s.shardOf key = metachainShard ↔ s.IsSystemKey key ∧ s.count ≤ 256 := by
  rw [shardOf_eq_ite]
  by_cases hcontract : isContractKey key = true
  · rw [← tail_eq_iff hcontract]
    by_cases htail : s.tail key = [255] <;>
      simp [hcontract, htail, shardOfNumber_ne_metachainShard]
  · simp [hcontract, shardOfNumber_ne_metachainShard, IsSystemKey]

/-- Every key lives in the metachain or in a shard. -/
theorem shardOf_lt_or_eq (s : Sharding) (key : Bytes) :
    s.shardOf key = metachainShard ∨ s.shardOf key < s.count := by
  rw [shardOf_eq_ite]
  split
  · exact .inl rfl
  · exact .inr (s.shardOfNumber_lt _)

/-! ### Keys for all shards

That a shard has a key of a user is shown by giving one: its last four bytes are the number of the
shard, and whatever number of them is looked at, the number of a shard is all in them. -/

/-- The key of a user that ends in the four bytes of a number. -/
def userKey (n : UInt32) : Bytes :=
  List.replicate 28 1 ++
    [UInt8.ofNat (n.toNat / 0x1000000), UInt8.ofNat (n.toNat / 0x10000),
      UInt8.ofNat (n.toNat / 0x100), UInt8.ofNat n.toNat]

theorem isUserKey_userKey (n : UInt32) : IsUserKey (userKey n) :=
  ⟨rfl, rfl⟩

/-- As many bytes as name a shard hold the number of any shard. -/
theorem toNat_tail_userKey {n : UInt32} (h : n < s.count) :
    Bytes.toNat (s.tail (userKey n)) = n.toNat := by
  rw [UInt32.lt_iff_toNat_lt] at h
  have hn := n.toNat_lt
  unfold tail tailLength
  simp only [UInt32.le_iff_toNat_le]
  -- one, two, three or four bytes, and the number fits in as many as are looked at
  split_ifs <;> simp [userKey, Bytes.toNat] at * <;> omega

theorem shardOf_userKey (hbits : s.bits < 32) {n : UInt32} (h : n < s.count) :
    s.shardOf (userKey n) = n := by
  rw [shardOf_eq_ite, (isUserKey_userKey n).2, Bool.false_and, if_neg Bool.false_ne_true,
    toNat_tail_userKey h, UInt32.ofNat_toNat, shardOfNumber_of_lt hbits h]

/-- The key of a contract that ends in bytes that are all 255, however many name a shard. -/
def systemKey : Bytes :=
  List.replicate 8 0 ++ List.replicate 24 255

theorem isSystemKey_systemKey (s : Sharding) : s.IsSystemKey systemKey := by
  refine ⟨by decide, fun b hb => ?_⟩
  have hle := s.tailLength_le
  have hlength : systemKey.length = 32 := rfl
  rw [tail, hlength, systemKey, List.drop_append, List.length_replicate,
    List.drop_eq_nil_of_le (by rw [List.length_replicate]; omega)] at hb
  exact List.eq_of_mem_replicate (List.mem_of_mem_drop hb)

/-- Where keys live. Each one lives in the metachain or in a shard. Those of contracts that end in
bytes that are all 255 make up the metachain exactly if one byte names every shard, and every shard
has a user exactly if fewer than 32 bits do. -/
theorem shardOf_places (s : Sharding) :
    (∀ key, s.shardOf key = metachainShard ∨ s.shardOf key < s.count) ∧
      (∀ key, s.shardOf key = metachainShard ↔ s.IsSystemKey key ∧ s.count ≤ 256) ∧
      ((∀ key, s.shardOf key = metachainShard ↔ s.IsSystemKey key) ↔ s.count ≤ 256) ∧
      ((∀ shard < s.count, ∃ key, IsUserKey key ∧ s.shardOf key = shard) ↔
        s.count ≤ 0x80000000) := by
  refine ⟨s.shardOf_lt_or_eq, s.shardOf_eq_metachainShard_iff, ?_, ?_⟩
  · simp only [shardOf_eq_metachainShard_iff, and_iff_left_iff_imp]
    exact ⟨fun h => h systemKey s.isSystemKey_systemKey, fun h _ _ => h⟩
  · rw [← bits_lt_iff]
    constructor
    · intro honto
      by_contra hbits
      -- the second shard has no key
      have hmany : ¬ s.count ≤ 0x80000000 := mt s.bits_lt_iff.mpr hbits
      have hcount : 0x80000000 < s.count.toNat := by
        rw [UInt32.le_iff_toNat_le] at hmany
        exact Nat.not_le.mp hmany
      obtain ⟨key, ⟨-, huser⟩, hkey⟩ := honto 1 (UInt32.lt_iff_toNat_lt.mpr (by
        show 1 < s.count.toNat
        omega))
      rw [shardOf_eq_ite, huser, Bool.false_and, if_neg Bool.false_ne_true,
        shardOfNumber_eq_zero hbits] at hkey
      exact absurd hkey (by decide)
    · intro hbits shard hshard
      exact ⟨userKey shard, isUserKey_userKey shard, shardOf_userKey hbits hshard⟩

/-- With 257 shards a contract that ends in bytes that are all 255 lives in a shard. -/
theorem shardOf_places_of_two_bytes :
    let s : Sharding := ⟨257, by decide⟩
    let key : Bytes := List.replicate 30 0 ++ [255, 255]
    s.IsSystemKey key ∧ s.shardOf key ≠ metachainShard ∧ s.shardOf key = 255 := by
  intro s key
  have htail : s.tail key = [255, 255] := rfl
  have hsystem : s.IsSystemKey key := by
    refine ⟨rfl, ?_⟩
    rw [htail]
    exact List.forall_mem_cons.mpr ⟨rfl, fun b hb => List.mem_singleton.mp hb⟩
  refine ⟨hsystem, fun h => ?_, by decide⟩
  exact absurd (((shardOf_places s).2.1 key).mp h).2 (by decide)

end Sharding

end ChainIndex
