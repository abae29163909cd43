import ChainIndex.Block
import ChainIndex.Json.Reader
import ChainIndex.Json.Record

/-!
# Blocks in JSON

Each type of a block is read and written here, field by field in one order. Writing gives every
field; reading fills in the fields that may be missing.
-/

namespace ChainIndex

/-! ### Names of choices -/

/-- The name of a processing type. -/
def ProcessingType.name : ProcessingType → String
  | .normal => "Normal"
  | .scheduled => "Scheduled"
  | .processed => "Processed"

/-- The processing type with a name. -/
def ProcessingType.ofName? : String → Option ProcessingType
  | "Normal" => some .normal
  | "Scheduled" => some .scheduled
  | "Processed" => some .processed
  | _ => none

/-- The name of a construction state. -/
def ConstructionState.name : ConstructionState → String
  | .proposed => "Proposed"
  | .final => "Final"
  | .partialExecuted => "PartialExecuted"

/-- The construction state with a name. -/
def ConstructionState.ofName? : String → Option ConstructionState
  | "Proposed" => some .proposed
  | "Final" => some .final
  | "PartialExecuted" => some .partialExecuted
  | _ => none

/-- The name of a miniblock type. -/
def MiniBlockType.name : MiniBlockType → String
  | .transactions => "TxBlock"
  | .states => "StateBlock"
  | .peers => "PeerBlock"
  | .results => "SmartContractResultBlock"
  | .invalid => "InvalidBlock"
  | .receipts => "ReceiptBlock"
  | .rewards => "RewardsBlock"

/-- The miniblock type with a name. -/
def MiniBlockType.ofName? : String → Option MiniBlockType
  | "TxBlock" => some .transactions
  | "StateBlock" => some .states
  | "PeerBlock" => some .peers
  | "SmartContractResultBlock" => some .results
  | "InvalidBlock" => some .invalid
  | "ReceiptBlock" => some .receipts
  | "RewardsBlock" => some .rewards
  | _ => none

/-! ### Header and body -/

namespace MiniBlockHeader

/-- Reads what the header says of a miniblock. -/
def ofJson? (j : Json) : Option MiniBlockHeader := do
  let m ← j.members? ["processingType", "constructionState", "indexOfFirstTxProcessed",
    "indexOfLastTxProcessed"]
  let processing ← m.defaulted "processingType" .normal fun v =>
    v.choice?.bind ProcessingType.ofName?
  let construction ← m.defaulted "constructionState" .final fun v =>
    v.choice?.bind ConstructionState.ofName?
  let firstExecuted ← m.defaulted "indexOfFirstTxProcessed" 0 Json.int32?
  let lastExecuted ← m.defaulted "indexOfLastTxProcessed" 2147483647 Json.int32?
  some ⟨processing, construction, firstExecuted, lastExecuted⟩

/-- Writes what the header says of a miniblock. -/
def toJson (h : MiniBlockHeader) : Json :=
  .object [("processingType", .string h.processing.name),
    ("constructionState", .string h.construction.name),
    ("indexOfFirstTxProcessed", .int32 h.firstExecuted),
    ("indexOfLastTxProcessed", .int32 h.lastExecuted)]

end MiniBlockHeader

namespace Header

/-- Reads a header. -/
def ofJson? (j : Json) : Option Header := do
  let m ← j.members? ["shardId", "round", "epoch", "timestamp", "timestampMs", "miniBlockHeaders"]
  let shard ← m.required "shardId" Json.uint32?
  let round ← m.required "round" Json.uint64?
  let epoch ← m.required "epoch" Json.uint32?
  let timestamp ← m.required "timestamp" Json.uint64?
  let timestampMs ← m.defaulted "timestampMs" 0 Json.uint64?
  let miniBlocks ← m.defaulted "miniBlockHeaders" [] (Json.list? MiniBlockHeader.ofJson?)
  some ⟨shard, round, epoch, timestamp, timestampMs, miniBlocks⟩

/-- Writes a header. -/
def toJson (h : Header) : Json :=
  .object [("shardId", .uint32 h.shard), ("round", .uint64 h.round), ("epoch", .uint32 h.epoch),
    ("timestamp", .uint64 h.timestamp), ("timestampMs", .uint64 h.timestampMs),
    ("miniBlockHeaders", .list MiniBlockHeader.toJson h.miniBlocks)]

end Header

namespace MiniBlock

/-- Reads a miniblock. -/
def ofJson? (j : Json) : Option MiniBlock := do
  let m ← j.members? ["type", "senderShardId", "receiverShardId", "txHashes"]
  let type ← m.required "type" fun v => v.choice?.bind MiniBlockType.ofName?
  let senderShard ← m.required "senderShardId" Json.uint32?
  let receiverShard ← m.required "receiverShardId" Json.uint32?
  let hashes ← m.defaulted "txHashes" [] (Json.list? Json.hexBytes?)
  some ⟨type, senderShard, receiverShard, hashes⟩

/-- Writes a miniblock. -/
def toJson (b : MiniBlock) : Json :=
  .object [("type", .string b.type.name), ("senderShardId", .uint32 b.senderShard),
    ("receiverShardId", .uint32 b.receiverShard), ("txHashes", .list .hexBytes b.hashes)]

/-- Reads the body of a block, which has the miniblocks for its only field. -/
def listOfBody? (j : Json) : Option (List MiniBlock) := do
  let m ← j.members? ["miniBlocks"]
  m.defaulted "miniBlocks" [] (Json.list? ofJson?)

/-- Writes the body of a block. -/
def bodyToJson (bs : List MiniBlock) : Json :=
  .object [("miniBlocks", .list toJson bs)]

end MiniBlock

/-! ### Pool -/

namespace FeeInfo

/-- Reads what a record has cost. -/
def ofJson? (j : Json) : Option FeeInfo := do
  let m ← j.members? ["gasUsed", "fee", "initialPaidFee", "gasRefunded"]
  let gasUsed ← m.required "gasUsed" Json.uint64?
  let fee ← m.required "fee" Json.string?
  let initialPaidFee ← m.required "initialPaidFee" Json.string?
  let gasRefunded ← m.defaulted "gasRefunded" 0 Json.uint64?
  some ⟨gasUsed, fee, initialPaidFee, gasRefunded⟩

/-- Writes what a record has cost. -/
def toJson (f : FeeInfo) : Json :=
  .object [("gasUsed", .uint64 f.gasUsed), ("fee", .string f.fee),
    ("initialPaidFee", .string f.initialPaidFee), ("gasRefunded", .uint64 f.gasRefunded)]

end FeeInfo

namespace TxPayload

/-- Reads a transaction. -/
def ofJson? (j : Json) : Option TxPayload := do
  let m ← j.members? ["nonce", "value", "rcvAddr", "rcvUserName", "sndAddr", "sndUserName",
    "gasPrice", "gasLimit", "data", "signature", "version", "relayerAddr"]
  let nonce ← m.defaulted "nonce" 0 Json.uint64?
  let value ← m.defaulted "value" "" Json.string?
  let receiver ← m.defaulted "rcvAddr" [] Json.hexBytes?
  let receiverUserName ← m.defaulted "rcvUserName" [] Json.base64Bytes?
  let sender ← m.defaulted "sndAddr" [] Json.hexBytes?
  let senderUserName ← m.defaulted "sndUserName" [] Json.base64Bytes?
  let gasPrice ← m.defaulted "gasPrice" 0 Json.uint64?
  let gasLimit ← m.defaulted "gasLimit" 0 Json.uint64?
  let data ← m.defaulted "data" [] Json.base64Bytes?
  let signature ← m.defaulted "signature" [] Json.hexBytes?
  let version ← m.defaulted "version" 0 Json.uint32?
  let relayer ← m.defaulted "relayerAddr" [] Json.hexBytes?
  some ⟨nonce, value, receiver, receiverUserName, sender, senderUserName, gasPrice, gasLimit, data,
    signature, version, relayer⟩

/-- Writes a transaction. -/
def toJson (t : TxPayload) : Json :=
  .object [("nonce", .uint64 t.nonce), ("value", .string t.value),
    ("rcvAddr", .hexBytes t.receiver),
    ("rcvUserName", .base64Bytes t.receiverUserName), ("sndAddr", .hexBytes t.sender),
    ("sndUserName", .base64Bytes t.senderUserName), ("gasPrice", .uint64 t.gasPrice),
    ("gasLimit", .uint64 t.gasLimit), ("data", .base64Bytes t.data),
    ("signature", .hexBytes t.signature), ("version", .uint32 t.version),
    ("relayerAddr", .hexBytes t.relayer)]

end TxPayload

namespace TxEntry

/-- Reads a transaction of the pool. -/
def ofJson? (j : Json) : Option TxEntry := do
  let m ← j.members? ["transaction", "feeInfo", "executionOrder"]
  let transaction ← m.required "transaction" TxPayload.ofJson?
  let feeInfo ← m.optional "feeInfo" FeeInfo.ofJson?
  let executionOrder ← m.defaulted "executionOrder" 0 Json.uint32?
  some ⟨transaction, feeInfo, executionOrder⟩

/-- Writes a transaction of the pool. -/
def toJson (e : TxEntry) : Json :=
  .object [("transaction", e.transaction.toJson), ("feeInfo", .optional FeeInfo.toJson e.feeInfo),
    ("executionOrder", .uint32 e.executionOrder)]

end TxEntry

namespace ResultPayload

/-- Reads a result. -/
def ofJson? (j : Json) : Option ResultPayload := do
  let m ← j.members? ["nonce", "value", "rcvAddr", "sndAddr", "relayerAddr", "relayedValue", "code",
    "data", "prevTxHash", "originalTxHash", "gasLimit", "gasPrice", "callType", "codeMetadata",
    "returnMessage", "originalSender"]
  let nonce ← m.defaulted "nonce" 0 Json.uint64?
  let value ← m.defaulted "value" "" Json.string?
  let receiver ← m.defaulted "rcvAddr" [] Json.hexBytes?
  let sender ← m.defaulted "sndAddr" [] Json.hexBytes?
  let relayer ← m.defaulted "relayerAddr" [] Json.hexBytes?
  let relayedValue ← m.defaulted "relayedValue" none (Json.nullable? Json.string?)
  let code ← m.defaulted "code" [] Json.base64Bytes?
  let data ← m.defaulted "data" [] Json.base64Bytes?
  let previousHash ← m.defaulted "prevTxHash" [] Json.hexBytes?
  let originHash ← m.defaulted "originalTxHash" [] Json.hexBytes?
  let gasLimit ← m.defaulted "gasLimit" 0 Json.uint64?
  let gasPrice ← m.defaulted "gasPrice" 0 Json.uint64?
  let callType ← m.defaulted "callType" 0 Json.int32?
  let codeMetadata ← m.defaulted "codeMetadata" [] Json.base64Bytes?
  let returnMessage ← m.defaulted "returnMessage" [] Json.base64Bytes?
  let originSender ← m.defaulted "originalSender" [] Json.hexBytes?
  some ⟨nonce, value, receiver, sender, relayer, relayedValue, code, data, previousHash,
    originHash, gasLimit, gasPrice, callType, codeMetadata, returnMessage, originSender⟩

/-- Writes a result. -/
def toJson (r : ResultPayload) : Json :=
  .object [("nonce", .uint64 r.nonce), ("value", .string r.value),
    ("rcvAddr", .hexBytes r.receiver),
    ("sndAddr", .hexBytes r.sender), ("relayerAddr", .hexBytes r.relayer),
    ("relayedValue", .optional .string r.relayedValue), ("code", .base64Bytes r.code),
    ("data", .base64Bytes r.data), ("prevTxHash", .hexBytes r.previousHash),
    ("originalTxHash", .hexBytes r.originHash), ("gasLimit", .uint64 r.gasLimit),
    ("gasPrice", .uint64 r.gasPrice), ("callType", .int32 r.callType),
    ("codeMetadata", .base64Bytes r.codeMetadata), ("returnMessage", .base64Bytes r.returnMessage),
    ("originalSender", .hexBytes r.originSender)]

end ResultPayload

namespace ResultEntry

/-- Reads a result of the pool. -/
def ofJson? (j : Json) : Option ResultEntry := do
  let m ← j.members? ["result", "feeInfo", "executionOrder"]
  let result ← m.required "result" ResultPayload.ofJson?
  let feeInfo ← m.optional "feeInfo" FeeInfo.ofJson?
  let executionOrder ← m.defaulted "executionOrder" 0 Json.uint32?
  some ⟨result, feeInfo, executionOrder⟩

/-- Writes a result of the pool. -/
def toJson (e : ResultEntry) : Json :=
  .object [("result", e.result.toJson), ("feeInfo", .optional FeeInfo.toJson e.feeInfo),
    ("executionOrder", .uint32 e.executionOrder)]

end ResultEntry

namespace RewardPayload

/-- Reads a reward. A receiver that is not named is empty. -/
def ofJson? (j : Json) : Option RewardPayload := do
  let m ← j.members? ["round", "epoch", "value", "rcvAddr"]
  let round ← m.required "round" Json.uint64?
  let epoch ← m.required "epoch" Json.uint32?
  let value ← m.required "value" Json.string?
  let receiver ← m.optional "rcvAddr" Json.hexBytes?
  some ⟨round, epoch, value, receiver.getD []⟩

/-- Writes a reward. -/
def toJson (r : RewardPayload) : Json :=
  .object [("round", .uint64 r.round), ("epoch", .uint32 r.epoch), ("value", .string r.value),
    ("rcvAddr", .hexBytes r.receiver)]

end RewardPayload

namespace RewardEntry

/-- Reads a reward of the pool. -/
def ofJson? (j : Json) : Option RewardEntry := do
  let m ← j.members? ["reward", "executionOrder"]
  let reward ← m.required "reward" RewardPayload.ofJson?
  let executionOrder ← m.defaulted "executionOrder" 0 Json.uint32?
  some ⟨reward, executionOrder⟩

/-- Writes a reward of the pool. -/
def toJson (e : RewardEntry) : Json :=
  .object [("reward", e.reward.toJson), ("executionOrder", .uint32 e.executionOrder)]

end RewardEntry

namespace ReceiptEntry

/-- Reads a receipt of the pool. -/
def ofJson? (j : Json) : Option ReceiptEntry := do
  let m ← j.members? ["value", "sndAddr", "data", "txHash"]
  let value ← m.defaulted "value" "" Json.string?
  let sender ← m.defaulted "sndAddr" [] Json.hexBytes?
  let data ← m.defaulted "data" [] Json.base64Bytes?
  let txHash ← m.defaulted "txHash" [] Json.hexBytes?
  some ⟨value, sender, data, txHash⟩

/-- Writes a receipt of the pool. -/
def toJson (e : ReceiptEntry) : Json :=
  .object [("value", .string e.value), ("sndAddr", .hexBytes e.sender),
    ("data", .base64Bytes e.data), ("txHash", .hexBytes e.txHash)]

end ReceiptEntry

namespace Event

/-- Reads an event. -/
def ofJson? (j : Json) : Option Event := do
  let m ← j.members? ["address", "identifier", "topics", "data", "additionalData"]
  let address ← m.defaulted "address" [] Json.hexBytes?
  let identifier ← m.defaulted "identifier" "" Json.string?
  let topics ← m.defaulted "topics" [] (Json.list? Json.hexBytes?)
  let data ← m.defaulted "data" [] Json.base64Bytes?
  let additionalData ← m.defaulted "additionalData" [] (Json.list? Json.base64Bytes?)
  some ⟨address, identifier, topics, data, additionalData⟩

/-- Writes an event. -/
def toJson (e : Event) : Json :=
  .object [("address", .hexBytes e.address), ("identifier", .string e.identifier),
    ("topics", .list .hexBytes e.topics), ("data", .base64Bytes e.data),
    ("additionalData", .list .base64Bytes e.additionalData)]

end Event

namespace Log

/-- Reads the events of a record. -/
def ofJson? (j : Json) : Option Log := do
  let m ← j.members? ["address", "events"]
  let address ← m.defaulted "address" [] Json.hexBytes?
  let events ← m.defaulted "events" [] (Json.list? Event.ofJson?)
  some ⟨address, events⟩

/-- Writes the events of a record. -/
def toJson (l : Log) : Json :=
  .object [("address", .hexBytes l.address), ("events", .list Event.toJson l.events)]

end Log

namespace LogEntry

/-- Reads a log with its hash. -/
def ofJson? (j : Json) : Option LogEntry := do
  let m ← j.members? ["txHash", "log"]
  let hash ← m.required "txHash" Json.string?
  let log ← m.required "log" Log.ofJson?
  some ⟨hash, log⟩

/-- Writes a log with its hash. -/
def toJson (e : LogEntry) : Json :=
  .object [("txHash", .string e.hash), ("log", e.log.toJson)]

end LogEntry

namespace Pool

/-- Reads the records of a block. -/
def ofJson? (j : Json) : Option Pool := do
  let m ← j.members? ["transactions", "smartContractResults", "rewards", "receipts", "invalidTxs",
    "logs"]
  let transactions ← m.defaulted "transactions" .empty (Json.dict? TxEntry.ofJson?)
  let results ← m.defaulted "smartContractResults" .empty (Json.dict? ResultEntry.ofJson?)
  let rewards ← m.defaulted "rewards" .empty (Json.dict? RewardEntry.ofJson?)
  let receipts ← m.defaulted "receipts" .empty (Json.dict? ReceiptEntry.ofJson?)
  let invalid ← m.defaulted "invalidTxs" .empty (Json.dict? TxEntry.ofJson?)
  let logs ← m.defaulted "logs" [] (Json.list? LogEntry.ofJson?)
  some ⟨transactions, results, rewards, receipts, invalid, logs⟩

/-- Writes the records of a block. -/
def toJson (p : Pool) : Json :=
  .object [("transactions", .dict TxEntry.toJson p.transactions),
    ("smartContractResults", .dict ResultEntry.toJson p.results),
    ("rewards", .dict RewardEntry.toJson p.rewards),
    ("receipts", .dict ReceiptEntry.toJson p.receipts),
    ("invalidTxs", .dict TxEntry.toJson p.invalid), ("logs", .list LogEntry.toJson p.logs)]

end Pool

/-! ### Accounts -/

namespace RawMetadata

/-- Reads the data of an item. -/
def ofJson? (j : Json) : Option RawMetadata := do
  let m ← j.members? ["nonce", "name", "creator", "royalties", "hash", "uris", "attributes"]
  let nonce ← m.defaulted "nonce" 0 Json.uint64?
  let name ← m.defaulted "name" "" Json.string?
  let creator ← m.defaulted "creator" "" Json.string?
  let royalties ← m.defaulted "royalties" 0 Json.uint32?
  let hash ← m.defaulted "hash" [] Json.base64Bytes?
  let uris ← m.defaulted "uris" [] (Json.list? Json.base64Bytes?)
  let attributes ← m.defaulted "attributes" [] Json.base64Bytes?
  some ⟨nonce, name, creator, royalties, hash, uris, attributes⟩

/-- Writes the data of an item. -/
def toJson (d : RawMetadata) : Json :=
  .object [("nonce", .uint64 d.nonce), ("name", .string d.name), ("creator", .string d.creator),
    ("royalties", .uint32 d.royalties), ("hash", .base64Bytes d.hash),
    ("uris", .list .base64Bytes d.uris), ("attributes", .base64Bytes d.attributes)]

end RawMetadata

namespace HoldingDetails

/-- Reads more about the tokens of an account. -/
def ofJson? (j : Json) : Option HoldingDetails := do
  let m ← j.members? ["isNFTCreate"]
  let isCreated ← m.defaulted "isNFTCreate" false Json.bool?
  some ⟨isCreated⟩

/-- Writes more about the tokens of an account. -/
def toJson (d : HoldingDetails) : Json :=
  .object [("isNFTCreate", .bool d.isCreated)]

end HoldingDetails

namespace Holding

/-- Reads the tokens of one kind. -/
def ofJson? (j : Json) : Option Holding := do
  let m ← j.members? ["nonce", "identifier", "balance", "properties", "metaData", "additionalData"]
  let nonce ← m.defaulted "nonce" 0 Json.uint64?
  let identifier ← m.required "identifier" Json.string?
  let balance ← m.defaulted "balance" "" Json.string?
  let properties ← m.defaulted "properties" "" Json.string?
  let metadata ← m.optional "metaData" RawMetadata.ofJson?
  let details ← m.optional "additionalData" HoldingDetails.ofJson?
  some ⟨nonce, identifier, balance, properties, metadata, details⟩

/-- Writes the tokens of one kind. -/
def toJson (h : Holding) : Json :=
  .object [("nonce", .uint64 h.nonce), ("identifier", .string h.identifier),
    ("balance", .string h.balance), ("properties", .string h.properties),
    ("metaData", .optional RawMetadata.toJson h.metadata),
    ("additionalData", .optional HoldingDetails.toJson h.details)]

end Holding

namespace AccountDetails

/-- Reads more about an account. -/
def ofJson? (j : Json) : Option AccountDetails := do
  let m ← j.members? ["isSender", "balanceChanged", "currentOwner", "userName", "developerRewards",
    "codeHash", "rootHash", "codeMetadata"]
  let isSender ← m.defaulted "isSender" false Json.bool?
  let balanceChanged ← m.defaulted "balanceChanged" false Json.bool?
  let currentOwner ← m.defaulted "currentOwner" "" Json.string?
  let userName ← m.defaulted "userName" "" Json.string?
  let developerRewards ← m.defaulted "developerRewards" "" Json.string?
  let codeHash ← m.defaulted "codeHash" [] Json.base64Bytes?
  let rootHash ← m.defaulted "rootHash" [] Json.base64Bytes?
  let codeMetadata ← m.defaulted "codeMetadata" [] Json.base64Bytes?
  some ⟨isSender, balanceChanged, currentOwner, userName, developerRewards, codeHash, rootHash,
    codeMetadata⟩

/-- Writes more about an account. -/
def toJson (d : AccountDetails) : Json :=
  .object [("isSender", .bool d.isSender), ("balanceChanged", .bool d.balanceChanged),
    ("currentOwner", .string d.currentOwner), ("userName", .string d.userName),
    ("developerRewards", .string d.developerRewards), ("codeHash", .base64Bytes d.codeHash),
    ("rootHash", .base64Bytes d.rootHash), ("codeMetadata", .base64Bytes d.codeMetadata)]

end AccountDetails

namespace AlteredAccount

/-- Reads an account whose state has changed. -/
def ofJson? (j : Json) : Option AlteredAccount := do
  let m ← j.members? ["address", "nonce", "balance", "tokens", "additionalData"]
  let address ← m.required "address" Json.string?
  let nonce ← m.defaulted "nonce" 0 Json.uint64?
  let balance ← m.defaulted "balance" "" Json.string?
  let tokens ← m.defaulted "tokens" [] (Json.list? Holding.ofJson?)
  let details ← m.optional "additionalData" AccountDetails.ofJson?
  some ⟨address, nonce, balance, tokens, details⟩

/-- Writes an account whose state has changed. -/
def toJson (a : AlteredAccount) : Json :=
  .object [("address", .string a.address), ("nonce", .uint64 a.nonce),
    ("balance", .string a.balance), ("tokens", .list Holding.toJson a.tokens),
    ("additionalData", .optional AccountDetails.toJson a.details)]

end AlteredAccount

/-! ### The whole block -/

namespace Block

/-- Reads a block. -/
def ofJson? (j : Json) : Option Block := do
  let m ← j.members? ["shardId", "header", "body", "transactionPool", "alteredAccounts"]
  let shard ← m.required "shardId" Json.uint32?
  let header ← m.optional "header" Header.ofJson?
  let miniBlocks ← m.defaulted "body" [] MiniBlock.listOfBody?
  let pool ← m.optional "transactionPool" Pool.ofJson?
  let accounts ← m.defaulted "alteredAccounts" .empty (Json.dict? AlteredAccount.ofJson?)
  some ⟨shard, header, miniBlocks, pool, accounts⟩

/-- Writes a block. -/
def toJson (b : Block) : Json :=
  .object [("shardId", .uint32 b.shard), ("header", .optional Header.toJson b.header),
    ("body", MiniBlock.bodyToJson b.miniBlocks),
    ("transactionPool", .optional Pool.toJson b.pool),
    ("alteredAccounts", .dict AlteredAccount.toJson b.accounts)]

/-- The block that JSON text describes. -/
def ofText? (text : String) : Option Block :=
  (Json.ofString? text).bind ofJson?

end Block

end ChainIndex
