import ChainIndex.Settlement

/-!
# Operations

The operations index shows transactions and results side by side, so each gets a type. A result
also gets a status, and is marked if it only repeats what its transaction says already.
-/

namespace ChainIndex

/-- The message of a result that gives gas back to whoever relayed a transaction. -/
def relayerRefundMessage : String := "gas refund for relayer"

/-- Whether a result only repeats what its transaction says: plain success, a refund for a relayer,
or items that somebody sends who is not a contract. -/
def ContractResult.repeatsTransaction (r : ContractResult) : Bool :=
  (Utf8.encode "@6f6b").isPrefixOf r.data
    || (r.returnMessage == relayerRefundMessage && r.data.isEmpty)
    || (isNftTransferName r.operation && !isContractKey r.senderKey)

/-- A transaction as an operation. -/
def Transaction.asOperation (t : Transaction) : Transaction :=
  { t with results := [], type := "normal" }

/-- A result as an operation, seen from a shard. -/
def ContractResult.asOperation (self : UInt32) (r : ContractResult) : ContractResult :=
  { r with
    type := "unsigned"
    canBeIgnored := r.repeatsTransaction
    status := some (arrivalStatus self r.receiverShard) }

/-- The transactions that a shard shows as operations. -/
def transactionOperations (importMode : Bool) (self : UInt32) (txs : List Transaction) :
    List Transaction :=
  (txs.filter fun t => isIndexed importMode self t.receiverShard).map (·.asOperation)

/-- The results that a shard shows as operations. -/
def resultOperations (importMode : Bool) (self : UInt32) (results : List ContractResult) :
    List ContractResult :=
  (results.filter fun r => isIndexed importMode self r.receiverShard).map (·.asOperation self)

end ChainIndex
