import ChainIndex.Chain.Network
import ChainIndex.Events.Family
import ChainIndex.Json.Record

/-!
# Logs

One document for each log, with its events, and one for each event, in which byte strings are
written in hexadecimal so that they can be searched.
-/

namespace ChainIndex

/-- An event as part of a log, with its position there. -/
structure EventRecord where
  address : String := ""
  identifier : String := ""
  topics : List Bytes := []
  data : Bytes := []
  additionalData : List Bytes := []
  order : Nat := 0
deriving Repr, DecidableEq, Inhabited

/-- A log. The second hash is that of the first transaction, if the log is that of a result. -/
structure LogRecord where
  hash : String := ""
  originHash : String := ""
  address : String := ""
  events : List EventRecord := []
  timestamp : UInt64 := 0
  timestampMs : UInt64 := 0
deriving Repr, DecidableEq, Inhabited

/-- An event on its own: with its log, the position of the record in the block, or -1 if the block
does not have the record, and the shard of the block. -/
structure IndexedEvent where
  log : LogRecord
  event : EventRecord
  recordOrder : Int
  shard : UInt32
deriving Repr, DecidableEq, Inhabited

/-- What names an event: the hash of its log, the shard, and its position. -/
def IndexedEvent.id (e : IndexedEvent) : String :=
  e.log.hash ++ "-" ++ Digits.ofNat e.shard.toNat ++ "-" ++ Digits.ofNat e.event.order

namespace Network

variable (n : Network)

/-- An event at a position of a log. -/
def eventRecord (e : Event) (order : Nat) : EventRecord :=
  { address := n.addresses.encodeOrEmpty e.address
    identifier := e.identifier
    topics := e.topics
    data := e.data
    additionalData := e.additionalData
    order }

/-- The document of a log. -/
def logRecord (stamp : BlockStamp) (results : List ContractResult) (l : LogEntry) : LogRecord :=
  { hash := l.hash
    originHash := match lastResult? l.hash results with
      | some r => r.originHash
      | none => ""
    address := n.addresses.encodeOrEmpty l.log.address
    events := l.log.events.zipIdx.map fun e => n.eventRecord e.1 e.2
    timestamp := stamp.timestamp
    timestampMs := stamp.timestampMs }

end Network

/-- The position in the block of the record that a hash names. -/
def recordOrder (txs : List Transaction) (results : List ContractResult) (hash : String) : Int :=
  match lastTransaction? hash txs, lastResult? hash results with
  | some t, _ => Int.ofNat t.executionOrder.toNat
  | none, some r => Int.ofNat r.executionOrder.toNat
  | none, none => -1

/-- The events of a log on their own. -/
def LogRecord.indexedEvents (shard : UInt32) (order : Int) (l : LogRecord) : List IndexedEvent :=
  l.events.map fun e => ⟨l, e, order, shard⟩

/-- The events of logs on their own. -/
def indexedEvents (stamp : BlockStamp) (txs : List Transaction) (results : List ContractResult)
    (logs : List LogRecord) : List IndexedEvent :=
  logs.flatMap fun l => l.indexedEvents stamp.shard (recordOrder txs results l.hash)

/-! ### Logs as documents -/

open Json

/-- The body of an event as part of a log. -/
def EventRecord.toJson (e : EventRecord) : Json :=
  .object <|
    [("address", .string e.address), ("identifier", .string e.identifier),
      ("topics", .list .base64Bytes e.topics)]
    ++ bytesField "data" e.data
    ++ listField "additionalData" .base64Bytes e.additionalData
    ++ [("order", .nat e.order)]

/-- The body of a log. -/
def LogRecord.toJson (l : LogRecord) : Json :=
  .object <|
    textField "originalTxHash" l.originHash
    ++ [("address", .string l.address), ("events", .list EventRecord.toJson l.events),
      ("timestamp", .uint64 l.timestamp)]
    ++ countField "timestampMs" l.timestampMs

/-- The body of an event on its own. -/
def IndexedEvent.toJson (e : IndexedEvent) : Json :=
  .object <|
    [("txHash", .string e.log.hash)]
    ++ textField "originalTxHash" e.log.originHash
    ++ [("logAddress", .string e.log.address), ("address", .string e.event.address),
      ("identifier", .string e.event.identifier)]
    ++ textField "data" (Hex.encode e.event.data)
    ++ listField "additionalData" .hexBytes e.event.additionalData
    ++ [("topics", .list .hexBytes e.event.topics), ("order", .nat e.event.order),
      ("txOrder", .int e.recordOrder), ("shardID", .uint32 e.shard),
      ("timestamp", .uint64 e.log.timestamp)]
    ++ countField "timestampMs" e.log.timestampMs

end ChainIndex
