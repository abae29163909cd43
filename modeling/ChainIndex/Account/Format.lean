import ChainIndex.Account
import ChainIndex.Token.Format

/-!
# Accounts as documents

The JSON bodies of accounts, holdings and snapshots of balances.
-/

namespace ChainIndex

open Json

/-- The body of an account or a holding. -/
def AccountRecord.toJson (a : AccountRecord) : Json :=
  .object <|
    [("address", .string a.address)]
    ++ countField "nonce" a.nonce
    ++ [("balance", .string a.balance), ("balanceNum", .float a.balanceNum)]
    ++ textField "token" a.collection
    ++ textField "identifier" a.identifier
    ++ countField "tokenNonce" a.tokenNonce
    ++ textField "properties" a.properties
    ++ switchField "frozen" a.isFrozen
    ++ textField "userName" a.userName
    ++ textField "developerRewards" a.developerRewards
    ++ amountField "developerRewardsNum" a.developerRewardsNum
    ++ (match a.metadata with
      | none => []
      | some m => [("data", m.toJson)])
    ++ countField "timestamp" a.timestamp
    ++ countField "timestampMs" a.timestampMs
    ++ textField "type" a.type
    ++ textField "currentOwner" a.currentOwner
    ++ [("shardID", .uint32 a.shard)]
    ++ bytesField "rootHash" a.rootHash
    ++ bytesField "codeHash" a.codeHash
    ++ bytesField "codeMetadata" a.codeMetadata
    ++ switchField "isSender" a.isSender
    ++ switchField "isSmartContract" a.isContract

/-- The body of a snapshot. -/
def BalanceSnapshot.toJson (s : BalanceSnapshot) : Json :=
  .object <|
    [("address", .string s.address), ("timestamp", .uint64 s.timestamp)]
    ++ countField "timestampMs" s.timestampMs
    ++ [("balance", .string s.balance)]
    ++ textField "token" s.collection
    ++ textField "identifier" s.identifier
    ++ countField "tokenNonce" s.tokenNonce
    ++ switchField "isSender" s.isSender
    ++ switchField "isSmartContract" s.isContract
    ++ [("shardID", .uint32 s.shard)]

end ChainIndex
