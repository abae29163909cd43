import ChainIndex.Chain.Network
import ChainIndex.Events.RoleChanges

/-!
# Delegations

Stakes that are delegated to contracts. Those contracts live in the metachain, so every other shard
declines the family. The last event of a delegator with a contract is the one that counts.
-/

namespace ChainIndex

/-- The identifier of a new stake. -/
def delegateIdentifier : String := "delegate"

/-- The identifier of a stake that is taken back. -/
def undelegateIdentifier : String := "unDelegate"

/-- The identifier of a payment of stakes taken back. -/
def withdrawIdentifier : String := "withdraw"

/-- The identifier of a payment of rewards. -/
def claimIdentifier : String := "claimRewards"

namespace Network

variable (n : Network) (stamp : BlockStamp)

/-- A balance of the currency as floating point, zero if it has no such form. -/
def balanceNum (amount : Nat) : Binary64 :=
  match n.scale.showBalance (Int.ofNat amount) with
  | .ok x => x
  | .error _ => .zero

/-- The end of a delegation, by a payment of rewards that leaves nothing at stake. -/
def closingOf? (e : LoggedEvent) : Option Delegation :=
  if 2 ≤ e.event.topics.length ∧ topicFlag (e.event.topic 1) then
    some
      { address := n.addresses.encodeOrEmpty e.event.address
        contract := n.addresses.encodeOrEmpty e.contract
        isClosed := true }
  else none

/-- The contract that an event is about: a new stake may name another one than the log does. -/
def delegationContract (e : LoggedEvent) : String :=
  if e.event.identifier = delegateIdentifier ∧ 4 < e.event.topics.length then
    n.addresses.encodeOrEmpty (e.event.topic 4)
  else n.addresses.encodeOrEmpty e.contract

/-- A delegation as an event leaves it, without what only some events tell. -/
def delegationBase (e : LoggedEvent) : Delegation :=
  let stake := Bytes.toNat (e.event.topic 1)
  { address := n.addresses.encodeOrEmpty e.event.address
    contract := n.delegationContract e
    timestamp := stamp.timestamp
    timestampMs := stamp.timestampMs
    stake := Digits.ofNat stake
    stakeNum := n.balanceNum stake }

/-- The stake that an event sends on its way back. -/
def unbondingOf (e : Event) : Unbonding :=
  let value := Bytes.toNat (e.topic 0)
  { timestamp := stamp.timestamp
    timestampMs := stamp.timestampMs
    id := Hex.encode (e.topic 4)
    value := Digits.ofNat value
    valueNum := n.balanceNum value }

/-- A delegation after a payment of stakes, which may leave nothing. -/
def withdrawnFrom (e : Event) (d : Delegation) : Delegation :=
  let paid := (e.topics.drop 5).map Hex.encode
  if topicFlag (e.topic 4) then
    { d with isClosed := true, withdrawn := some paid, stake := "", stakeNum := .zero }
  else { d with withdrawn := some paid }

/-- The delegation that an event changes. -/
def delegationOf? (e : LoggedEvent) : Option Delegation :=
  if e.event.identifier = claimIdentifier then n.closingOf? e
  else if e.event.topics.length < 4 then none
  else
    let d := n.delegationBase stamp e
    if 4 < e.event.topics.length then
      if e.event.identifier = withdrawIdentifier then some (withdrawnFrom e.event d)
      else if e.event.identifier = undelegateIdentifier then
        some { d with unbonding := some (n.unbondingOf stamp e.event) }
      else some d
    else some d

/-- The events about delegations. -/
def delegations : EventFamily where
  identifiers := [delegateIdentifier, undelegateIdentifier, withdrawIdentifier,
    "reDelegateRewards", claimIdentifier]
  interpret e r :=
    if stamp.shard ≠ metachainShard then none
    else
      match n.delegationOf? stamp e with
      | none => some r
      | some d =>
        some (r.learn fun f => { f with delegations := f.delegations.insert d.key d })

end Network

end ChainIndex
