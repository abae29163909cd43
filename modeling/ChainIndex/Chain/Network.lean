import ChainIndex.Call.Summary
import ChainIndex.Chain.Amount
import ChainIndex.Chain.Fee

/-!
# Networks

What the settings of a network amount to once they have been checked: how addresses are written
and placed in shards, how amounts are scaled, and what gas costs.
-/

namespace ChainIndex

/-- A network whose settings make sense. -/
structure Network extends CallReader where
  scale : AmountScale
  fees : FeeSchedule

namespace Network

/-- The scale of amounts that settings describe. -/
def scaleOf (c : Config) : Except Error AmountScale :=
  (AmountScale.ofDenomination c.denomination).mapError .conversion

/-- The network that settings describe; the first setting that makes no sense is the error. -/
def ofConfig (c : Config) : Except Error Network := do
  let addresses ← AddressFormat.ofConfig c.address
  let scale ← scaleOf c
  let sharding ← Sharding.ofCount c.shardCount
  let fees ← FeeSchedule.ofConfig c.economics
  return { addresses, sharding, scale, fees }

/-- One shard, keys of one byte that are written in hexadecimal, and gas at one price. -/
instance : Inhabited Network where
  default :=
    { addresses := ⟨.hex, "", 1, Nat.one_pos⟩
      sharding := ⟨1, by decide⟩
      scale := ⟨.powTen 0⟩
      fees := ⟨1, 1, ⟨1, 0⟩⟩ }

end Network

/-- A token value given as text, zero if it has no floating-point form. -/
def AmountScale.tokenValueOrZero (s : AmountScale) (text : String) : Binary64 :=
  match readAmount text >>= s.showTokenValue with
  | .ok x => x
  | .error _ => .zero

end ChainIndex
