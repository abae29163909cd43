import ChainIndex.Events.Format
import ChainIndex.Record.Format
import ChainIndex.Search.Document
import ChainIndex.Settlement

/-!
# Documents of transactions and results

A transaction between two shards is written by both, in either order, and neither may lose what
the other one knows: the source knows what a plain token transfer has cost, the destination knows
everything else. A transfer of items inside a shard keeps the outcome that the logs have settled.
-/

namespace ChainIndex

/-- The fields that tell how a transaction has ended. -/
def outcomeFields : List String :=
  ["status", "errorEvent", "completedEvent"]

/-- The fields that tell what a transaction has cost. -/
def costFields : List String :=
  ["gasUsed", "fee", "feeNum"]

namespace Transaction

/-- Whether the transaction leaves a shard. -/
def leaves (self : UInt32) (t : Transaction) : Bool :=
  t.senderShard != t.receiverShard && t.senderShard == self

/-- Whether the transaction comes to a shard from another one. -/
def arrives (self : UInt32) (t : Transaction) : Bool :=
  t.senderShard != t.receiverShard && t.receiverShard == self

/-- Whether the transaction transfers a token and calls nothing. -/
def isPlainTokenTransfer (t : Transaction) : Bool :=
  t.operation == CallKind.tokenTransferName && t.function.isEmpty

/-- Whether the transaction transfers items inside a shard. -/
def transfersItemsInside (t : Transaction) : Bool :=
  t.senderShard == t.receiverShard && isNftTransferData 4 t.data

/-- What a shard does to the document of a transaction. -/
def action (self : UInt32) (t : Transaction) : Action :=
  if t.leaves self then
    if t.isPlainTokenTransfer then
      .update (.replace (.updateFee t.gasUsed t.fee t.feeNum)) t.toJson
    else .update (.replace .keepExisting) t.toJson
  else if t.transfersItemsInside then
    .update (.replace (.keepFields outcomeFields)) t.toJson
  else if t.isPlainTokenTransfer && t.arrives self then
    .update (.replace (.keepFields costFields)) t.toJson
  else .put t.toJson

/-- The document of a transaction. -/
def document (index : String) (self : UInt32) (t : Transaction) : Document :=
  ⟨index, t.hash, t.action self⟩

end Transaction

/-- The end of a transaction after a report of its failure. -/
def Ending.withStatus (status : TxStatus) (e : Ending) : Ending :=
  if e.status = some .fail then e else { e with status := some status }

/-- What logs tell of the ends of transactions, together with what orphans tell. -/
def withStatuses (statuses : Table TxStatus) (endings : Table Ending) : Table Ending :=
  statuses.entries.foldl
    (fun endings s => endings.alter s.1 fun known => (known.getD {}).withStatus s.2) endings

/-- The documents about how transactions of other blocks have ended. -/
def endingDocuments (index : String) (endings : Table Ending) : List Document :=
  endings.entries.map fun e => .update index e.1 (.mergeEnding e.2) e.2.toJson

/-- The documents of transactions, and those about the ends of other ones. -/
def transactionDocuments (index : String) (self : UInt32) (endings : Table Ending)
    (txs : List Transaction) : List Document :=
  txs.map (·.document index self) ++ endingDocuments index endings

/-- What a correction does to the cost of a transaction. -/
def FeeCorrection.script (f : FeeCorrection) : UpdateScript :=
  if f.gasRefunded = 0 then .setFee f.fee f.feeNum f.gasUsed
  else .subtractRefund f.fee f.feeNum f.gasRefunded

/-- The documents about the cost of transactions of other blocks. -/
def feeDocuments (index : String) (fees : Table FeeCorrection) : List Document :=
  fees.entries.map fun e => .script index e.1 e.2.script

/-- The documents of results. -/
def resultDocuments (index : String) (results : List ContractResult) : List Document :=
  results.map fun r => .put index r.hash r.toJson

/-- The documents of receipts. -/
def receiptDocuments (index : String) (receipts : List Receipt) : List Document :=
  receipts.map fun r => .put index r.hash r.toJson

end ChainIndex
