import ChainIndex.Digest.Sha256
import ChainIndex.Events.Format
import ChainIndex.Logs
import ChainIndex.Search.Document

/-!
# Documents of logs, delegations and contracts

Logs of a block that is handed in again never replace those of a newer one. A contract that is
deployed where one is stored already is an upgrade of that one.
-/

namespace ChainIndex

/-- The documents of logs. -/
def logDocuments (index : String) (logs : List LogRecord) : List Document :=
  logs.map fun l => .update index l.hash (.replaceIfNewer l.timestamp) l.toJson

/-- The documents of events. -/
def eventDocuments (index : String) (events : List IndexedEvent) : List Document :=
  events.map fun e => .update index e.id (.replaceIfNewer e.log.timestamp) e.toJson

namespace Delegation

/-- What a delegation is stored under: the digest of its key, in base64. -/
def id (d : Delegation) : String :=
  Base64.encode (Sha256.digest (Utf8.encode d.key))

/-- What the last event about a delegation changes. -/
def script (d : Delegation) : UpdateScript :=
  match d.unbonding, d.withdrawn with
  | some u, _ => .appendUnbonding d.stake d.stakeNum d.timestamp u
  | none, some ids => .removeWithdrawn d.stake d.stakeNum d.timestamp ids
  | none, none => .setStake d.stake d.stakeNum d.timestamp

/-- The document of a delegation. -/
def document (index : String) (d : Delegation) : Document :=
  if d.isClosed then .delete index d.id
  else .update index d.id d.script d.toJson

end Delegation

/-- The documents of delegations. -/
def delegationDocuments (index : String) (delegations : Table Delegation) : List Document :=
  delegations.values.map (·.document index)

/-- The documents of contracts. -/
def deploymentDocuments (index : String) (deployments : Table Deployment) : List Document :=
  deployments.entries.map fun e => .update index e.1 (.appendUpgrade e.2) e.2.toJson

/-- The documents about owners of contracts. -/
def ownerDocuments (index : String) (owners : Table OwnerRecord) : List Document :=
  owners.entries.map fun e => .script index e.1 (.changeOwner e.2)

end ChainIndex
