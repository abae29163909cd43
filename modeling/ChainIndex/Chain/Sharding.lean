import ChainIndex.Chain.Address

/-!
# Shards

A key belongs to the shard that its last bits name; bits that name no shard are read with one bit
less. Contracts whose last byte is 255 live in the metachain if one byte names every shard.
-/

namespace ChainIndex

/-- The number of the metachain shard. -/
def metachainShard : UInt32 := 0xFFFFFFFF

/-- A network of at least one shard. -/
structure Sharding where
  count : UInt32
  count_ne_zero : count ≠ 0

namespace Sharding

/-- The network with a number of shards. -/
def ofCount (count : UInt32) : Except Error Sharding :=
  if h : count = 0 then .error (.invalidConfig "number of shards should be greater than 0")
  else .ok ⟨count, h⟩

/-- The number of bits that name the last shard. -/
def bits (s : Sharding) : Nat :=
  if s.count = 1 then 0 else (s.count - 1).toNat.log2 + 1

/-- The mask of all bits that a shard number needs. A shift by the whole width is no shift. -/
def wideMask (s : Sharding) : UInt32 :=
  ((1 : UInt32) <<< UInt32.ofNat s.bits) - 1

/-- The mask of one bit less. -/
def narrowMask (s : Sharding) : UInt32 :=
  if s.bits = 0 then 0 else ((1 : UInt32) <<< UInt32.ofNat (s.bits - 1)) - 1

/-- How many of the last bytes of a key name its shard. -/
def tailLength (s : Sharding) : Nat :=
  if s.count ≤ 256 then 1
  else if s.count ≤ 65536 then 2
  else if s.count ≤ 16777216 then 3
  else 4

/-- The last bytes of a key, as many as name its shard. -/
def tail (s : Sharding) (key : Bytes) : Bytes :=
  key.drop (key.length - s.tailLength)

/-- The shard of a key. -/
def shardOf (s : Sharding) (key : Bytes) : UInt32 :=
  let tail := s.tail key
  if isContractKey key && tail == [255] then metachainShard
  else
    let n := UInt32.ofNat (Bytes.toNat tail)
    let shard := n &&& s.wideMask
    if s.count - 1 < shard then n &&& s.narrowMask else shard

end Sharding

end ChainIndex
