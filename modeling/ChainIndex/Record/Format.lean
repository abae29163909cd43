import ChainIndex.Json.Record
import ChainIndex.Record

/-!
# Records as documents

The JSON body of each kind of record. Fields that say nothing are left out: empty texts and lists,
zero counts and switches that are off, where the index knows them to be optional.
-/

namespace ChainIndex

open Json

namespace Transaction

/-- What stands in the body of a transaction in front of its cost. -/
def membersBefore (t : Transaction) : List (String × Json) :=
  [("miniBlockHash", .string t.miniBlockHash), ("nonce", .uint64 t.nonce),
    ("round", .uint64 t.round), ("value", .string t.value), ("valueNum", .float t.valueNum),
    ("receiver", .string t.receiver), ("sender", .string t.sender),
    ("receiverShard", .uint32 t.receiverShard), ("senderShard", .uint32 t.senderShard),
    ("gasPrice", .uint64 t.gasPrice), ("gasLimit", .uint64 t.gasLimit)]

/-- The cost in the body of a transaction. -/
def costMembers (t : Transaction) : List (String × Json) :=
  [("gasUsed", .uint64 t.gasUsed), ("fee", .string t.fee), ("feeNum", .float t.feeNum)]

/-- What stands in the body of a transaction after its cost. -/
def membersAfter (t : Transaction) : List (String × Json) :=
  textField "initialPaidFee" t.initialPaidFee
  ++ [("data", .base64Bytes t.data), ("signature", .string t.signature),
    ("timestamp", .uint64 t.timestamp)]
  ++ countField "timestampMs" t.timestampMs
  ++ [("status", .string t.status.name), ("searchOrder", .uint32 t.searchOrder)]
  ++ bytesField "senderUserName" t.senderUserName
  ++ bytesField "receiverUserName" t.receiverUserName
  ++ switchField "hasScResults" t.hasResults
  ++ switchField "isScCall" t.isContractCall
  ++ switchField "hasOperations" t.hasOperations
  ++ switchField "hasLogs" t.hasLogs
  ++ listField "tokens" .string t.tokens
  ++ listField "esdtValues" .string t.tokenValues
  ++ listField "esdtValuesNum" .float t.tokenValuesNum
  ++ listField "receivers" .string t.receivers
  ++ listField "receiversShardIDs" .uint32 t.receiverShards
  ++ textField "type" t.type
  ++ textField "operation" t.operation
  ++ textField "function" t.function
  ++ switchField "isRelayed" t.isRelayed
  ++ countField "version" t.version.toUInt64
  ++ switchField "errorEvent" t.errorEvent
  ++ switchField "completedEvent" t.completedEvent

/-- The body of a transaction. -/
def toJson (t : Transaction) : Json :=
  .object (t.membersBefore ++ t.costMembers ++ t.membersAfter)

end Transaction

/-- The body of a result. -/
def ContractResult.toJson (r : ContractResult) : Json :=
  .object <|
    textField "miniBlockHash" r.miniBlockHash
    ++ [("nonce", .uint64 r.nonce), ("gasLimit", .uint64 r.gasLimit),
      ("gasPrice", .uint64 r.gasPrice), ("value", .string r.value), ("valueNum", .float r.valueNum),
      ("sender", .string r.sender), ("receiver", .string r.receiver),
      ("senderShard", .uint32 r.senderShard), ("receiverShard", .uint32 r.receiverShard)]
    ++ textField "relayerAddr" r.relayer
    ++ textField "relayedValue" r.relayedValue
    ++ textField "code" r.code
    ++ bytesField "data" r.data
    ++ [("prevTxHash", .string r.previousHash), ("originalTxHash", .string r.originHash),
      ("callType", .string r.callType)]
    ++ bytesField "codeMetaData" r.codeMetadata
    ++ textField "returnMessage" r.returnMessage
    ++ [("timestamp", .uint64 r.timestamp)]
    ++ countField "timestampMs" r.timestampMs
    ++ switchField "hasOperations" r.hasOperations
    ++ switchField "hasLogs" r.hasLogs
    ++ textField "type" r.type
    ++ (match r.status with
      | none => []
      | some status => [("status", .string status.name)])
    ++ listField "tokens" .string r.tokens
    ++ listField "esdtValues" .string r.tokenValues
    ++ listField "esdtValuesNum" .float r.tokenValuesNum
    ++ listField "receivers" .string r.receivers
    ++ listField "receiversShardIDs" .uint32 r.receiverShards
    ++ textField "operation" r.operation
    ++ textField "function" r.function
    ++ switchField "isRelayed" r.isRelayed
    ++ switchField "canBeIgnored" r.canBeIgnored
    ++ textField "originalSender" r.originSender

/-- The body of a receipt. -/
def Receipt.toJson (r : Receipt) : Json :=
  .object <|
    [("value", .string r.value), ("sender", .string r.sender)]
    ++ textField "data" r.data
    ++ [("txHash", .string r.txHash), ("timestamp", .uint64 r.timestamp)]

end ChainIndex
