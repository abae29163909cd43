import ChainIndex.Events.Findings
import ChainIndex.Token.Format

/-!
# Findings as documents

The JSON bodies of what the logs tell about contracts, delegations and the ends of transactions.
-/

namespace ChainIndex

open Json

/-- The body of a deployment. Upgrades and owners are appended once the contract is stored. -/
def Deployment.toJson (d : Deployment) : Json :=
  .object <|
    [("deployTxHash", .string d.txHash), ("deployer", .string d.creator)]
    ++ textField "currentOwner" d.currentOwner
    ++ bytesField "initialCodeHash" d.codeHash
    ++ [("timestamp", .uint64 d.timestamp)]
    ++ countField "timestampMs" d.timestampMs
    ++ [("upgrades", .array []), ("owners", .array [])]

/-- The body of a deployment as an upgrade of a contract that is stored. -/
def Deployment.upgradeToJson (d : Deployment) : Json :=
  .object <|
    [("upgradeTxHash", .string d.txHash), ("upgrader", .string d.creator),
      ("timestamp", .uint64 d.timestamp)]
    ++ countField "timestampMs" d.timestampMs
    ++ bytesField "codeHash" d.codeHash

/-- The body of a stake on its way back. -/
def Unbonding.toJson (u : Unbonding) : Json :=
  .object <|
    [("timestamp", .uint64 u.timestamp)]
    ++ countField "timestampMs" u.timestampMs
    ++ [("id", .string u.id), ("value", .string u.value), ("valueNum", .float u.valueNum)]

/-- The body of a delegation. -/
def Delegation.toJson (d : Delegation) : Json :=
  .object <|
    [("address", .string d.address), ("contract", .string d.contract),
      ("timestamp", .uint64 d.timestamp)]
    ++ countField "timestampMs" d.timestampMs
    ++ [("activeStake", .string d.stake), ("activeStakeNum", .float d.stakeNum)]

/-- The body of the end of a transaction. -/
def Ending.toJson (e : Ending) : Json :=
  .object <|
    (match e.status with
      | none => []
      | some status => [("status", .string status.name)])
    ++ switchField "errorEvent" e.hasError
    ++ switchField "completedEvent" e.isComplete

end ChainIndex
