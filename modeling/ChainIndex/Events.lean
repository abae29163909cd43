import ChainIndex.Events.Delegations
import ChainIndex.Events.Deploys
import ChainIndex.Events.Endings
import ChainIndex.Events.Issues
import ChainIndex.Events.ItemUpdates
import ChainIndex.Events.Items
import ChainIndex.Events.RoleChanges

/-!
# Reading the logs of a block

All families of events in the order in which they are asked, and the reading of a whole block.
-/

namespace ChainIndex

/-- The logs of a block, none without a pool. -/
def Block.logs (b : Block) : List LogEntry :=
  match b.pool with
  | none => []
  | some pool => pool.logs

namespace Network

/-- The families of events in order. -/
def eventFamilies (n : Network) (stamp : BlockStamp) : List EventFamily :=
  [n.deploys stamp, endings, n.itemUpdates, n.roleChanges, n.issues stamp, n.delegations stamp,
    n.items stamp]

/-- What logs tell of transactions and results, and what else they tell. -/
def readLogs (n : Network) (stamp : BlockStamp) (logs : List LogEntry) (txs : List Transaction)
    (results : List ContractResult) : Reading :=
  EventFamily.readLogs (n.eventFamilies stamp) ⟨txs, results, {}⟩ logs

end Network

end ChainIndex
