import ChainIndex.Proofs.Settlement

/-!
# Results and their first transactions

A result goes back to the transaction that has led to it. If the block has that transaction, in a
miniblock of transactions or of invalid ones, the result is attached to it and to no other one;
otherwise it is an orphan (`ContractResult.IsOrphan`), and what it tells of its first transaction is
kept as a correction. `Network.settle_sharesOut` says which results a transaction has and which
corrections there are, and of whom they come.

A result is attached by looking for it: each transaction takes the results that name it. That every
result finds its transaction, and only one, rests on the hashes of the settled transactions, which
differ because they are the keys of a table (`attachesResults`). Whether a result is an orphan is
asked of the table before anything is settled; settling changes no key, so the answer is the same
for the transactions that the block shows (`isOrphan_iff`).

Rewards are left out on both sides. A result that goes back to a reward is an orphan, although the
block has the reward.
-/

namespace ChainIndex

/-! ### Orphans and what they tell -/

namespace ContractResult

/-- No transaction among some is the one that a result goes back to. -/
def IsOrphan (txs : List Transaction) (r : ContractResult) : Prop :=
  ∀ t ∈ txs, t.hash ≠ r.originHash

/-- A result tells what the transaction with a hash has cost: it gives gas back, or it knows the gas
that was used, and the hash is not empty. -/
structure TellsCost (hash : String) (r : ContractResult) : Prop where
  origin : r.originHash = hash
  cost : r.gasRefunded ≠ 0 ∨ r.initialGasUsed ≠ 0 ∧ hash ≠ ""

/-- A result tells that the transaction with a hash has failed. -/
structure TellsReturn (hash : String) (r : ContractResult) : Prop where
  origin : r.originHash = hash
  back : r.GivesItemsBack

variable {hash : String} {r : ContractResult}

theorem tellsCost_iff : r.TellsCost hash ↔ r.correctsFee = true ∧ r.originHash = hash := by
  simp only [correctsFee, Bool.or_eq_true, Bool.and_eq_true, bne_iff_ne, Bool.not_eq_true',
    String.isEmpty_eq_false_iff]
  constructor
  · intro h
    obtain ⟨rfl, hcost⟩ := h
    exact ⟨hcost, rfl⟩
  · intro h
    obtain ⟨hcost, rfl⟩ := h
    exact ⟨rfl, hcost⟩

theorem tellsReturn_iff : r.TellsReturn hash ↔ r.isFailedTransfer = true ∧ r.originHash = hash := by
  rw [isFailedTransfer_eq_true_iff]
  exact ⟨fun h => ⟨h.back, h.origin⟩, fun h => ⟨h.2, h.1⟩⟩

end ContractResult

/-- Each result is attached to the transaction that it goes back to, and an orphan to none. -/
structure AttachesResults (txs : List Transaction) (results : List ContractResult) : Prop where
  /-- A transaction has its results in their order. -/
  attached : ∀ t ∈ txs, t.results = results.filter fun r => r.originHash == t.hash
  once : ∀ r ∈ results, ¬ r.IsOrphan txs →
    ∃ t ∈ txs, t.hash = r.originHash ∧ ∀ u ∈ txs, r ∈ u.results ↔ u = t
  orphans : ∀ r ∈ results, r.IsOrphan txs → ∀ t ∈ txs, r ∉ t.results

/-- What orphans tell of transactions is kept by hash. -/
structure Network.KeepsCorrections (n : Network) (txs : List Transaction) (s : Settled) :
    Prop where
  feeKeys : ∀ hash, hash ∈ s.fees.keys ↔ ∃ r ∈ s.results, r.IsOrphan txs ∧ r.TellsCost hash
  /-- The last orphan that tells the cost counts. -/
  fees : ∀ hash c, s.fees.get? hash = some c ↔
    ∃ before r after, s.results = before ++ r :: after ∧ (r.IsOrphan txs ∧ r.TellsCost hash) ∧
      (∀ u ∈ after, ¬ (u.IsOrphan txs ∧ u.TellsCost hash)) ∧
      c = { fee := r.initialFee, feeNum := n.scale.tokenValueOrZero r.initialFee,
            gasUsed := r.initialGasUsed, receiver := r.receiver, gasRefunded := r.gasRefunded }
  statusKeys : ∀ hash, hash ∈ s.statuses.keys ↔
    ∃ r ∈ s.results, r.IsOrphan txs ∧ r.TellsReturn hash
  statuses : ∀ hash status, s.statuses.get? hash = some status → status = .fail

/-! ### Tables of what orphans tell -/

namespace Network

variable {n : Network} {h : Header} {pool : Pool} {importMode : Bool}
  {miniBlocks : List MiniBlock} {results : List ContractResult} {hash : String}

/-- A table lacks the hashes that no miniblock lists as transactions. -/
theorem not_contains_transactionTable_iff :
    (!(n.transactionTable h pool importMode miniBlocks).contains hash) = true ↔
      ∀ p ∈ miniBlocks.zipIdx, ∀ t, ¬ n.ListsTransaction h pool importMode p hash t := by
  rw [Bool.not_eq_true', ← Bool.not_eq_true, Table.contains_eq_true_iff,
    mem_keys_transactionTable]
  simp

/-- The orphans of a table are those of the settled transactions. -/
theorem isOrphan_iff {r : ContractResult} :
    r.IsOrphan (n.settledTable h pool importMode miniBlocks).values ↔
      (!(n.transactionTable h pool importMode miniBlocks).contains r.originHash) = true := by
  rw [Bool.not_eq_true', ← Bool.not_eq_true, Table.contains_eq_true_iff, ← map_hash_settledTable,
    List.mem_map, ContractResult.IsOrphan]
  simp

/-- Each of the settled transactions has those results that go back to it. -/
theorem results_of_mem_settledTable {t : Transaction}
    (ht : t ∈ (n.settledTable h pool importMode miniBlocks).values) :
    t.results = (n.resultsOf h pool miniBlocks).filter fun r => r.originHash == t.hash := by
  obtain ⟨hash, hget⟩ := Table.mem_values_iff.mp ht
  obtain ⟨rfl, b, r, hl, hform⟩ := get?_settledTable hget
  have hresults : (n.settledForm h pool miniBlocks r t.searchOrder).results =
      (n.resultsOf h pool miniBlocks).filter fun x => x.originHash == r.hash :=
    Transaction.results_withOutcome
  rw [hform, hresults]
  rw [settledForm, Transaction.hash_withOutcome]
  rfl

theorem attachesResults (n : Network) (h : Header) (pool : Pool) (importMode : Bool)
    (miniBlocks : List MiniBlock) :
    AttachesResults (n.settledTable h pool importMode miniBlocks).values
      (n.resultsOf h pool miniBlocks) := by
  have hmem : ∀ r ∈ n.resultsOf h pool miniBlocks,
      ∀ t ∈ (n.settledTable h pool importMode miniBlocks).values,
        r ∈ t.results ↔ r.originHash = t.hash := by
    intro r hr t ht
    rw [results_of_mem_settledTable ht, List.mem_filter, beq_iff_eq]
    exact and_iff_right hr
  -- at most one transaction has the hash that a result names
  have hnodup : ((n.settledTable h pool importMode miniBlocks).values.map (·.hash)).Nodup := by
    rw [map_hash_settledTable]
    exact Table.nodup_keys _
  refine ⟨fun t ht => results_of_mem_settledTable ht, ?_, ?_⟩
  · intro r hr hknown
    rw [ContractResult.IsOrphan] at hknown
    push Not at hknown
    obtain ⟨t, ht, heq⟩ := hknown
    refine ⟨t, ht, heq, ?_⟩
    intro u hu
    rw [hmem r hr u hu, ← heq]
    constructor
    · intro hsame
      exact List.inj_on_of_nodup_map hnodup hu ht hsame.symm
    · intro hsame
      rw [hsame]
  · intro r hr horphan t ht hattached
    exact horphan t ht ((hmem r hr t ht).mp hattached).symm

/-! ### Corrections

Both tables are collected from the orphans. For the cost the last orphan of a hash counts, so an
entry comes with a cut of the list of results. For failures it does not matter which one counts,
since there is only one thing to tell. -/

theorem get?_feeCorrections {table : Table Transaction} {c : FeeCorrection} :
    (n.feeCorrections (orphansOf table results)).get? hash = some c ↔
      ∃ before r after, results = before ++ r :: after ∧
        ((!table.contains r.originHash) = true ∧ r.TellsCost hash) ∧
        (∀ u ∈ after, ¬ ((!table.contains u.originHash) = true ∧ u.TellsCost hash)) ∧
        c = n.feeCorrectionOf r := by
  rw [feeCorrections, Table.get?_ofList, orphansOf, List.filter_filter, lastValue?_map_filter]
  simp only [ContractResult.tellsCost_iff, Bool.and_eq_true]
  grind

theorem get?_failuresOf {orphans : List ContractResult} {status : TxStatus} :
    (failuresOf orphans).get? hash = some status ↔
      status = .fail ∧ ∃ s ∈ orphans, s.TellsReturn hash := by
  rw [failuresOf, Table.get?_ofList, lastValue?_eq_some_iff_mem]
  · simp only [List.mem_map, List.mem_filter, ContractResult.tellsReturn_iff, Prod.mk.injEq]
    grind
  · -- all that is told is failure
    intro v w hv hw
    obtain ⟨_, -, hv⟩ := List.mem_map.mp hv
    obtain ⟨_, -, hw⟩ := List.mem_map.mp hw
    rw [← (Prod.mk.inj hv).2, ← (Prod.mk.inj hw).2]

theorem mem_keys_feeCorrections {table : Table Transaction} :
    hash ∈ (n.feeCorrections (orphansOf table results)).keys ↔
      ∃ r ∈ results, (!table.contains r.originHash) = true ∧ r.TellsCost hash := by
  rw [feeCorrections, Table.mem_keys_ofList, orphansOf, List.filter_filter, List.map_map]
  simp only [ContractResult.tellsCost_iff, List.mem_map, List.mem_filter, Bool.and_eq_true,
    Function.comp_apply]
  grind

theorem mem_keys_failuresOf {table : Table Transaction} :
    hash ∈ (failuresOf (orphansOf table results)).keys ↔
      ∃ r ∈ results, (!table.contains r.originHash) = true ∧ r.TellsReturn hash := by
  simp only [Table.mem_keys_iff, get?_failuresOf, exists_eq_left, orphansOf, List.mem_filter,
    and_assoc]

theorem keepsCorrections (n : Network) {block : Block} (hh : block.header = some h)
    (hp : block.pool = some pool) (importMode : Bool) :
    n.KeepsCorrections (n.settledTable h pool importMode block.miniBlocks).values
      (n.settle block importMode) := by
  rw [settle, hh, hp]
  refine ⟨?_, ?_, ?_, ?_⟩
  · intro hash
    simp only [isOrphan_iff]
    exact mem_keys_feeCorrections
  · intro hash c
    simp only [isOrphan_iff]
    exact get?_feeCorrections
  · intro hash
    simp only [isOrphan_iff]
    exact mem_keys_failuresOf
  · intro hash status hstatus
    exact (get?_failuresOf.mp hstatus).1

/-! ### Main result -/

/-- The results of a block are shared out among its transactions, in miniblocks of transactions or
of invalid ones, and what is left over corrects transactions of other blocks. No result is lost on
the way: it is attached to one transaction, or it is an orphan and may tell a correction. -/
theorem settle_sharesOut (n : Network) {block : Block} (hh : block.header = some h)
    (hp : block.pool = some pool) (importMode : Bool) :
    let s := n.settle block importMode
    ∃ normal paid, s.transactions = normal ++ paid ∧
      OnePerHash (n.ListsTransaction h pool importMode) block.miniBlocks.zipIdx normal ∧
      OnePerHash (n.ListsReward h pool importMode) block.miniBlocks.zipIdx paid ∧
      AttachesResults normal s.results ∧ (∀ t ∈ paid, t.results = []) ∧
      n.KeepsCorrections normal s := by
  intro s
  refine ⟨_, _, settle_transactions n hh hp importMode,
    onePerHash_settledTable n h pool importMode block.miniBlocks,
    onePerHash_rewardTable n h pool importMode block.miniBlocks, ?_, ?_,
    keepsCorrections n hh hp importMode⟩
  · have hresults : s.results = n.resultsOf h pool block.miniBlocks :=
      settle_results n hh hp importMode
    rw [hresults]
    exact attachesResults n h pool importMode block.miniBlocks
  · intro t ht
    obtain ⟨hash, hget⟩ := Table.mem_values_iff.mp ht
    obtain ⟨b, hl⟩ := get?_rewardTable.mp hget
    cases hl.lists
    rfl

/-- One result is attached, the last one of two orphans tells what their first transaction has cost,
and another orphan gives items back. -/
theorem settle_sharesOut_of_orphans :
    let back := Utf8.encode "ESDTNFTTransfer@01@02@75736572206572726f72"
    let pool : Pool :=
      { transactions := .ofList [("01", {})]
        results := .ofList
          [("02", { result := { originHash := [1] } }),
            ("03", { result := { originHash := [9] }, feeInfo := some { gasUsed := 5 } }),
            ("04", { result := { originHash := [9] }, feeInfo := some { gasRefunded := 6 } }),
            ("05", { result := { originHash := [8], data := back } })] }
    let block : Block :=
      { header := some {}, miniBlocks := [⟨.transactions, 0, 0, [[1]]⟩], pool := some pool }
    let s := (default : Network).settle block false
    (s.transactions.map fun t => t.results.map (·.hash)) = [["02"]] ∧
      s.fees.entries.map (fun e => (e.1, e.2.gasUsed, e.2.gasRefunded)) = [("09", 0, 6)] ∧
      s.statuses.entries = [("08", .fail)] ∧
      ∃ normal paid, s.transactions = normal ++ paid ∧
        OnePerHash ((default : Network).ListsTransaction {} pool false) block.miniBlocks.zipIdx
          normal ∧
        OnePerHash ((default : Network).ListsReward {} pool false) block.miniBlocks.zipIdx paid ∧
        AttachesResults normal s.results ∧ (∀ t ∈ paid, t.results = []) ∧
        (default : Network).KeepsCorrections normal s := by
  intro back pool block s
  refine ⟨?_, ?_, ?_, settle_sharesOut default rfl rfl false⟩
  · decide
  · decide
  · decide

end Network

end ChainIndex
