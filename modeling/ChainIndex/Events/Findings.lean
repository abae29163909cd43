import ChainIndex.Block
import ChainIndex.Record
import ChainIndex.Token.Registry
import ChainIndex.Token.Roles

/-!
# What logs tell

The events of a block tell of contracts and their owners, of tokens, items and roles, of
delegations, and of how transactions have ended. `Findings` collects all of this by subject.
-/

namespace ChainIndex

/-- The deployment of a contract, or its latest upgrade. -/
structure Deployment where
  txHash : String := ""
  creator : String := ""
  currentOwner : String := ""
  codeHash : Bytes := []
  timestamp : UInt64 := 0
  timestampMs : UInt64 := 0
deriving Repr, DecidableEq, Inhabited

/-- A stake on its way back to its owner. -/
structure Unbonding where
  timestamp : UInt64 := 0
  timestampMs : UInt64 := 0
  id : String := ""
  value : String := ""
  valueNum : Binary64 := .zero
deriving Repr, DecidableEq, Inhabited

/-- What somebody has at stake with a contract of delegation, and what the last event has changed:
whether nothing is left, which stake is on its way back, and which ones have been paid out. -/
structure Delegation where
  address : String := ""
  contract : String := ""
  timestamp : UInt64 := 0
  timestampMs : UInt64 := 0
  stake : String := ""
  stakeNum : Binary64 := .zero
  isClosed : Bool := false
  unbonding : Option Unbonding := none
  withdrawn : Option (List String) := none
deriving Repr, DecidableEq, Inhabited

/-- What a delegation is known by: delegator and contract. -/
def Delegation.key (d : Delegation) : String :=
  d.address ++ d.contract

/-- A change of an item, or of all items of a collection. -/
inductive ItemChange where
  | setAttributes (attributes : Bytes)
  | addUris (uris : List Bytes)
  /-- Freezing of what one holder has, or the end of it. -/
  | freeze (frozen : Bool)
  /-- A pause of a whole collection, or the end of it. -/
  | pause (paused : Bool)
deriving Repr, DecidableEq, Inhabited

/-- A change of an item, with the identifier of the item or the collection, and the holder whom it
concerns or who has made it. -/
structure ItemUpdate where
  identifier : String
  address : String
  change : ItemChange
deriving Repr, DecidableEq, Inhabited

/-- How a transaction has ended, as told by the logs of its results. -/
structure Ending where
  status : Option TxStatus := none
  hasError : Bool := false
  isComplete : Bool := false
deriving Repr, DecidableEq, Inhabited

/-- What is known after one more report: failure is final, and marks stay once they are set. -/
def Ending.merge (known report : Ending) : Ending :=
  { status := if known.status = some .fail then known.status else report.status
    hasError := known.hasError || report.hasError
    isComplete := known.isComplete || report.isComplete }

/-- What the logs of a block tell. -/
structure Findings where
  /-- The items created. -/
  created : Registry := .empty
  /-- The items burnt or wiped. -/
  removed : Registry := .empty
  /-- The tokens issued and their changes of ownership or type, in order. -/
  issued : List TokenRecord := []
  /-- The contracts deployed or upgraded, by address. -/
  deployments : Table Deployment := .empty
  /-- The new owners of contracts, by address. -/
  owners : Table OwnerRecord := .empty
  /-- The delegations that have changed, by key. -/
  delegations : Table Delegation := .empty
  /-- The changes of items, in order. -/
  itemUpdates : List ItemUpdate := []
  /-- The changes of roles and properties. -/
  roleBook : RoleBook := {}
  /-- How transactions of other blocks have ended, by hash. -/
  endings : Table Ending := .empty
deriving Inhabited

end ChainIndex
