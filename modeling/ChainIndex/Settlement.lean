import ChainIndex.Settlement.Listing
import ChainIndex.Settlement.Outcome

/-!
# Settlement

Settling a block gives one consistent picture of its records: the transactions with their results
attached and their outcome drawn, the results, the receipts, and what orphans have to say. An
orphan is a result whose first transaction is not among the block's; it may correct the fee of that
transaction, or tell that it has failed.
-/

namespace ChainIndex

/-! ### The results of a block

Every result of the pool becomes one record. The first miniblock of results that lists it gives its
place; listed results come first, in the order of their listing. A result that no miniblock lists
stays inside the shard, and these follow in the order of their hashes. -/

/-- The first entry of each key, in order; `seen` are the keys that are taken already. -/
def firstEntries {α : Type} (seen : List String) : List (String × α) → List (String × α)
  | [] => []
  | (k, v) :: rest =>
    if seen.contains k then firstEntries seen rest else (k, v) :: firstEntries (k :: seen) rest

/-- The places that miniblocks of results give to hashes, in the order of their listing. -/
def resultPlaces (miniBlocks : List MiniBlock) : List (String × Placement) :=
  (miniBlocks.filter fun b => b.type == .results).flatMap fun b =>
    let place := Placement.ofMiniBlock b
    b.hashes.map fun hash => (Hex.encode hash, place)

/-- The results of the pool as records. -/
def Network.resultsOf (n : Network) (h : Header) (pool : Pool) (miniBlocks : List MiniBlock) :
    List ContractResult :=
  let places := firstEntries [] (resultPlaces miniBlocks)
  let listed := places.filterMap fun p =>
    (pool.results.get? p.1).map fun entry => n.resultOf h p.1 p.2 entry
  let others := (Table.ofList pool.results.entries).entries.filter fun e =>
    !(places.map Prod.fst).contains e.1
  listed ++ others.map fun e => n.resultOf h e.1 (Placement.unlisted h.shard) e.2

/-! ### The picture of a block -/

/-- The records of a block, and corrections for transactions that other blocks have, by hash. -/
structure Settled where
  transactions : List Transaction := []
  results : List ContractResult := []
  receipts : List Receipt := []
  statuses : Table TxStatus := .empty
  fees : Table FeeCorrection := .empty
deriving Inhabited

/-- The results whose first transaction is not in a table. -/
def orphansOf (txs : Table Transaction) (results : List ContractResult) : List ContractResult :=
  results.filter fun r => !txs.contains r.originHash

/-- A transaction with those results attached that name it as their first one, in order. -/
def Transaction.attach (results : List ContractResult) (hash : String) (t : Transaction) :
    Transaction :=
  { t with results := results.filter fun r => r.originHash == hash }

/-- Whether an orphan tells the cost of its first transaction. -/
def ContractResult.correctsFee (r : ContractResult) : Bool :=
  r.gasRefunded != 0 || (r.initialGasUsed != 0 && !r.originHash.isEmpty)

namespace Network

variable (n : Network)

/-- What a result says of the cost of its first transaction. -/
def feeCorrectionOf (r : ContractResult) : FeeCorrection :=
  { fee := r.initialFee
    feeNum := n.scale.tokenValueOrZero r.initialFee
    gasUsed := r.initialGasUsed
    receiver := r.receiver
    gasRefunded := r.gasRefunded }

/-- The fee corrections of orphans; the last one for a transaction counts. -/
def feeCorrections (orphans : List ContractResult) : Table FeeCorrection :=
  Table.ofList ((orphans.filter (·.correctsFee)).map fun r => (r.originHash, n.feeCorrectionOf r))

/-- The transactions that orphans report as failed. -/
def failuresOf (orphans : List ContractResult) : Table TxStatus :=
  Table.ofList ((orphans.filter (·.isFailedTransfer)).map fun r => (r.originHash, .fail))

/-- The transactions of a block by hash, with their results attached and their outcome drawn. -/
def settledTable (h : Header) (pool : Pool) (importMode : Bool) (miniBlocks : List MiniBlock) :
    Table Transaction :=
  let results := n.resultsOf h pool miniBlocks
  (n.transactionTable h pool importMode miniBlocks).map fun hash t =>
    (t.attach results hash).withOutcome n

/-- The records of a block that has a header and a pool, and no record otherwise. -/
def settle (block : Block) (importMode : Bool) : Settled :=
  match block.header, block.pool with
  | some h, some pool =>
    let results := n.resultsOf h pool block.miniBlocks
    let table := n.transactionTable h pool importMode block.miniBlocks
    let orphans := orphansOf table results
    let settled := n.settledTable h pool importMode block.miniBlocks
    { transactions :=
        settled.values ++ (n.rewardTable h pool importMode block.miniBlocks).values
      results
      receipts := n.receiptsOf h pool
      statuses := failuresOf orphans
      fees := n.feeCorrections orphans }
  | _, _ => {}

end Network

end ChainIndex
