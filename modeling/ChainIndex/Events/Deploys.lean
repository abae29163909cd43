import ChainIndex.Chain.Network
import ChainIndex.Events.Family

/-!
# Deployments

Contracts that are deployed, upgraded, or given to a new owner. A later deployment or upgrade of a
contract takes the place of an earlier one, and so does a later owner.
-/

namespace ChainIndex

/-- The identifier of a change of owner. -/
def ownerChangeIdentifier : String := "ChangeOwnerAddress"

namespace Network

variable (n : Network) (stamp : BlockStamp)

/-- The contract that an event deploys or upgrades. -/
def deploymentOf? (e : LoggedEvent) : Option (String × Deployment) :=
  match e.event.topics with
  | contract :: creator :: _ =>
    some (n.addresses.encodeOrEmpty contract,
      { txHash := e.hash
        creator := n.addresses.encodeOrEmpty creator
        currentOwner := n.addresses.encodeOrEmpty creator
        codeHash := e.event.topic 2
        timestamp := stamp.timestamp
        timestampMs := stamp.timestampMs })
  | _ => none

/-- The contract that an event gives to a new owner. -/
def newOwnerOf? (e : LoggedEvent) : Option (String × OwnerRecord) :=
  match e.event.topics with
  | owner :: _ =>
    some (n.addresses.encodeOrEmpty e.event.address,
      { txHash := e.hash
        address := n.addresses.encodeOrEmpty owner
        timestamp := stamp.timestamp
        timestampMs := stamp.timestampMs })
  | [] => none

/-- The events about contracts. -/
def deploys : EventFamily where
  identifiers := ["SCDeploy", "SCUpgrade", ownerChangeIdentifier]
  interpret e r :=
    if e.event.identifier = ownerChangeIdentifier then
      match n.newOwnerOf? stamp e with
      | none => some r
      | some (contract, owner) =>
        some (r.learn fun f => { f with owners := f.owners.insert contract owner })
    else
      match n.deploymentOf? stamp e with
      | none => some r
      | some (contract, deployment) =>
        some (r.learn fun f =>
          { f with deployments := f.deployments.insert contract deployment })

end Network

end ChainIndex
