import ChainIndex.Record.Build
import ChainIndex.Table

/-!
# What a block executes

A miniblock may be executed over several blocks; the header tells which part of it belongs to this
one. The records that are listed in that part and found in the pool are collected by hash, and a
later listing of a hash replaces an earlier one.
-/

namespace ChainIndex

/-- The hashes of the miniblock at a position that the block of the header has executed: those
from the first index to the last, or all of them if the header does not describe the miniblock. -/
def Header.executed (h : Header) (position : Nat) (hashes : List Bytes) : List Bytes :=
  match h.miniBlocks[position]? with
  | none => hashes
  | some m =>
    (hashes.zipIdx.filter fun e =>
      decide (m.firstExecuted.toInt ≤ Int.ofNat e.2)
        && decide (Int.ofNat e.2 ≤ m.lastExecuted.toInt)).map Prod.fst

/-- Whether the miniblock at a position was executed in an earlier block already. -/
def Header.isProcessed (h : Header) (position : Nat) : Bool :=
  match h.miniBlocks[position]? with
  | none => false
  | some m => m.processing == .processed

/-- The status of a record on its way to a shard, as that shard or another one sees it. -/
def arrivalStatus (self receiver : UInt32) : TxStatus :=
  if self = receiver then .success else .pending

/-- Whether a record that goes to a shard is indexed: in import mode only where it arrives. -/
def isIndexed (importMode : Bool) (self receiver : UInt32) : Bool :=
  !importMode || receiver == self

/-- A miniblock with its position in the block. -/
abbrev PlacedMiniBlock := MiniBlock × Nat

namespace Network

variable (n : Network) (h : Header) (pool : Pool) (importMode : Bool)

/-- The records that a miniblock lists in its executed part and that a look-up finds, by hash. -/
def listed {α : Type} (b : PlacedMiniBlock) (find : String → Option α) : List (String × α) :=
  (h.executed b.2 b.1.hashes).filterMap fun hash =>
    (find (Hex.encode hash)).map fun record => (Hex.encode hash, record)

/-- The transactions that a miniblock of transactions or of invalid transactions adds. -/
def transactionsOf (b : PlacedMiniBlock) : List (String × Transaction) :=
  let place := Placement.ofMiniBlock b.1
  match b.1.type with
  | .transactions =>
    if h.isProcessed b.2 || !isIndexed importMode h.shard b.1.receiverShard then []
    else
      let status := arrivalStatus h.shard b.1.receiverShard
      (listed h b pool.transactions.get?).map fun e =>
        (e.1, n.transactionOf h e.1 place status e.2)
  | .invalid =>
    (listed h b pool.invalid.get?).map fun e => (e.1, n.transactionOf h e.1 place .invalid e.2)
  | _ => []

/-- The rewards that a miniblock of rewards adds. -/
def rewardsOf (b : PlacedMiniBlock) : List (String × Transaction) :=
  match b.1.type with
  | .rewards =>
    if !isIndexed importMode h.shard b.1.receiverShard then []
    else
      let place := Placement.ofMiniBlock b.1
      let status := arrivalStatus h.shard b.1.receiverShard
      (listed h b pool.rewards.get?).map fun e => (e.1, n.rewardOf h e.1 place status e.2)
  | _ => []

/-- The transactions of a block by hash, the invalid ones among them, numbered in that order. -/
def transactionTable (miniBlocks : List MiniBlock) : Table Transaction :=
  (Table.ofList (miniBlocks.zipIdx.flatMap (n.transactionsOf h pool importMode))).number
    fun i t => { t with searchOrder := UInt32.ofNat i }

/-- The rewards of a block by hash. -/
def rewardTable (miniBlocks : List MiniBlock) : Table Transaction :=
  Table.ofList (miniBlocks.zipIdx.flatMap (n.rewardsOf h pool importMode))

/-- The receipts of the pool in the order of their hashes. -/
def receiptsOf : List Receipt :=
  (Table.ofList pool.receipts.entries).entries.map fun e => n.receiptOf h e.1 e.2

end Network

end ChainIndex
