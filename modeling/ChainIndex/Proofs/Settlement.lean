import ChainIndex.Proofs.Settlement.Listing
import ChainIndex.Proofs.Settlement.Outcome
import ChainIndex.Proofs.Settlement.Results

/-!
# What a settled block shows

The transactions of a block are one for each hash that is listed and found, in the order of their
hashes, and after them its rewards (`settle_transactions_of_listings`). Each transaction has the
results that name it, and the outcome that these tell (`settle_transactions_isSettled`).

A hash may be listed by several miniblocks. Each listing makes a record, a later one takes the place
of an earlier one, and when all are read the records are numbered, given their results and drawn
their outcomes. So a transaction is described from its last listing (`LastListing`): the record `r`
that this makes is known field by field, and the settled form is what is made of it afterwards
(`Network.settledForm`).
-/

namespace ChainIndex

/-- The number of hashes that miniblocks execute, but for those of results and of receipts. -/
def Header.executedSum (h : Header) : List PlacedMiniBlock → Nat
  | [] => 0
  | b :: rest =>
    if b.1.type = .results ∨ b.1.type = .receipts then h.executedSum rest
    else h.executedCount b + h.executedSum rest

/-- The settled form of the record of a listing, with a number. -/
def Network.settledForm (n : Network) (h : Header) (pool : Pool) (miniBlocks : List MiniBlock)
    (r : Transaction) (order : UInt32) : Transaction :=
  ({ r with searchOrder := order }.attach (n.resultsOf h pool miniBlocks) r.hash).withOutcome n

/-- Transactions that come of listings: those of transactions, then those of rewards. -/
structure Network.ShowsListings (n : Network) (h : Header) (pool : Pool) (importMode : Bool)
    (miniBlocks : List MiniBlock) (normal paid : List Transaction) : Prop where
  onePerHash : OnePerHash (n.ListsTransaction h pool importMode) miniBlocks.zipIdx normal
  /-- The last listing of a hash gives the record, and the position gives the number. -/
  last : ∀ i t, normal[i]? = some t →
    t.searchOrder = UInt32.ofNat i ∧
      ∃ b r, LastListing (n.ListsTransaction h pool importMode) miniBlocks.zipIdx t.hash b r ∧
        t = n.settledForm h pool miniBlocks r (UInt32.ofNat i)
  paidOnePerHash : OnePerHash (n.ListsReward h pool importMode) miniBlocks.zipIdx paid
  paidLast : ∀ t ∈ paid,
    t.searchOrder = 0 ∧
      ∃ b, LastListing (n.ListsReward h pool importMode) miniBlocks.zipIdx t.hash b t
  length_le : normal.length + paid.length ≤ h.executedSum miniBlocks.zipIdx

/-- A transaction as the block shows it, where `b` is the last miniblock that lists it and `r` the
record that the listing makes. -/
structure Network.IsSettled (n : Network) (h : Header) (pool : Pool) (miniBlocks : List MiniBlock)
    (b : PlacedMiniBlock) (r t : Transaction) : Prop where
  /-- It has the results of the pool that name it as their first transaction, in their places. -/
  results : ∀ x, x ∈ t.results ↔
    ∃ key entry, pool.results.get? key = some entry ∧
      Hex.encode entry.result.originHash = t.hash ∧
      x = n.resultOf h key (resultPlace h.shard miniBlocks key) entry
  /-- No result comes twice. -/
  distinct : (t.results.map (·.hash)).Nodup
  hasResults : t.hasResults = true ↔ t.results ≠ []
  signed : t.data = r.data ∧ t.gasLimit = r.gasLimit ∧ t.gasPrice = r.gasPrice
  invalid : b.1.type = .invalid → t.status = .invalid
  failed : b.1.type ≠ .invalid → (t.status = .fail ↔ FailsBy t.data t.results)
  arrived : b.1.type ≠ .invalid → ¬ FailsBy t.data t.results →
    t.status = if b.1.receiverShard = h.shard then .success else .pending
  /-- If its results charge it, it has used its whole gas limit and paid the fee for that. -/
  charged : b.1.type ≠ .invalid → IsCharged t.data t.results →
    t.gasUsed = t.gasLimit ∧
      ∃ fee, fee = n.fees.fee t.gasPrice t.gasLimit t.data ∧ t.fee = Digits.ofNat fee ∧
        t.feeNum = (n.scale.showTokenValue (Int.ofNat fee)).toOption.getD .zero
  /-- Otherwise it has cost what the pool says. -/
  uncharged : b.1.type = .invalid ∨ ¬ IsCharged t.data t.results →
    t.gasUsed = r.gasUsed ∧ t.fee = r.fee ∧ t.feeNum = r.feeNum

namespace Network

variable {n : Network} {h : Header} {pool : Pool} {importMode : Bool} {miniBlocks : List MiniBlock}

/-! ### From listings to transactions

Both tables are keyed by hash, and every value stands under its own. So the hashes of the values are
the keys, which are in order and without repeats. -/

theorem settle_transactions (n : Network) {block : Block} (hh : block.header = some h)
    (hp : block.pool = some pool) (importMode : Bool) :
    (n.settle block importMode).transactions =
      (n.settledTable h pool importMode block.miniBlocks).values ++
        (n.rewardTable h pool importMode block.miniBlocks).values := by
  rw [settle, hh, hp]

theorem settle_results (n : Network) {block : Block} (hh : block.header = some h)
    (hp : block.pool = some pool) (importMode : Bool) :
    (n.settle block importMode).results = n.resultsOf h pool block.miniBlocks := by
  rw [settle, hh, hp]

/-- What the settled table holds is the settled form of the records of last listings. -/
theorem get?_settledTable {hash : String} {t : Transaction}
    (ht : (n.settledTable h pool importMode miniBlocks).get? hash = some t) :
    t.hash = hash ∧
      ∃ b r, LastListing (n.ListsTransaction h pool importMode) miniBlocks.zipIdx hash b r ∧
        t = n.settledForm h pool miniBlocks r t.searchOrder := by
  rw [settledTable, Table.get?_map, Option.map_eq_some_iff] at ht
  obtain ⟨u, hu, rfl⟩ := ht
  obtain ⟨b, r, hl, hur⟩ := get?_transactionTable hu
  obtain rfl : r.hash = hash := hl.lists.hash_eq
  have huhash : u.hash = r.hash := by rw [hur]
  have horder : ((u.attach (n.resultsOf h pool miniBlocks) r.hash).withOutcome n).searchOrder =
      u.searchOrder := Transaction.searchOrder_withOutcome
  refine ⟨Transaction.hash_withOutcome.trans huhash, b, r, hl, ?_⟩
  rw [horder, settledForm, ← hur]

theorem searchOrder_settledTable {i : Nat} {t : Transaction}
    (ht : (n.settledTable h pool importMode miniBlocks).values[i]? = some t) :
    t.searchOrder = UInt32.ofNat i := by
  rw [settledTable, Table.values, Table.map, List.getElem?_map, List.getElem?_map,
    transactionTable, Table.getElem?_entries_number] at ht
  simp only [Option.map_map, Option.map_eq_some_iff] at ht
  obtain ⟨e, -, rfl⟩ := ht
  exact Transaction.searchOrder_withOutcome

theorem map_hash_settledTable :
    (n.settledTable h pool importMode miniBlocks).values.map (·.hash) =
      (n.transactionTable h pool importMode miniBlocks).keys := by
  rw [Table.map_values fun _ _ hv => (get?_settledTable hv).1, settledTable, Table.keys_map]

theorem onePerHash_settledTable (n : Network) (h : Header) (pool : Pool) (importMode : Bool)
    (miniBlocks : List MiniBlock) :
    OnePerHash (n.ListsTransaction h pool importMode) miniBlocks.zipIdx
      (n.settledTable h pool importMode miniBlocks).values := by
  constructor
  · rw [map_hash_settledTable]
    exact Table.pairwise_keys _
  · intro hash
    rw [map_hash_settledTable]
    exact mem_keys_transactionTable

theorem map_hash_rewardTable :
    (n.rewardTable h pool importMode miniBlocks).values.map (·.hash) =
      (n.rewardTable h pool importMode miniBlocks).keys := by
  apply Table.map_values
  intro hash t ht
  obtain ⟨b, hb⟩ := get?_rewardTable.mp ht
  exact hb.lists.hash_eq

theorem onePerHash_rewardTable (n : Network) (h : Header) (pool : Pool) (importMode : Bool)
    (miniBlocks : List MiniBlock) :
    OnePerHash (n.ListsReward h pool importMode) miniBlocks.zipIdx
      (n.rewardTable h pool importMode miniBlocks).values := by
  constructor
  · rw [map_hash_rewardTable]
    exact Table.pairwise_keys _
  · intro hash
    rw [map_hash_rewardTable]
    exact mem_keys_rewardTable

/-! ### The number of transactions

A miniblock gives at most one transaction or reward for each hash that it executes; collecting them
under their hashes makes them fewer, never more. -/

section Count

variable (n h pool importMode)

/-- No type of miniblock lists both transactions and rewards, so one bound holds of their sum. -/
theorem length_transactionsOf_add_le (b : PlacedMiniBlock) :
    (n.transactionsOf h pool importMode b).length + (n.rewardsOf h pool importMode b).length ≤
      if b.1.type = .results ∨ b.1.type = .receipts then 0 else h.executedCount b := by
  have hlisted : ∀ {α : Type} (find : String → Option α),
      (listed h b find).length ≤ h.executedCount b := length_listed_le b
  cases htype : b.1.type with
  | transactions =>
      have hlen := hlisted pool.transactions.get?
      simp only [transactionsOf, rewardsOf, htype]
      split <;> simp [hlen]
  | invalid =>
      have hlen := hlisted pool.invalid.get?
      simp [transactionsOf, rewardsOf, htype, hlen]
  | rewards =>
      have hlen := hlisted pool.rewards.get?
      simp only [transactionsOf, rewardsOf, htype]
      split <;> simp [hlen]
  | results => simp [transactionsOf, rewardsOf, htype]
  | receipts => simp [transactionsOf, rewardsOf, htype]
  | states => simp [transactionsOf, rewardsOf, htype]
  | peers => simp [transactionsOf, rewardsOf, htype]

theorem length_flatMap_add_le (bs : List PlacedMiniBlock) :
    (bs.flatMap (n.transactionsOf h pool importMode)).length +
      (bs.flatMap (n.rewardsOf h pool importMode)).length ≤ h.executedSum bs := by
  induction bs with
  | nil => exact Nat.le_refl 0
  | cons b rest ih =>
      have hb := length_transactionsOf_add_le n h pool importMode b
      rw [List.flatMap_cons, List.flatMap_cons, List.length_append, List.length_append,
        Header.executedSum]
      split <;> rename_i htype
      · rw [if_pos htype] at hb
        omega
      · rw [if_neg htype] at hb
        omega

/-- No more transactions than executed hashes. -/
theorem length_values_add_le :
    (n.settledTable h pool importMode miniBlocks).values.length +
      (n.rewardTable h pool importMode miniBlocks).values.length ≤
        h.executedSum miniBlocks.zipIdx := by
  have hsettled : (n.settledTable h pool importMode miniBlocks).values.length ≤
      (miniBlocks.zipIdx.flatMap (n.transactionsOf h pool importMode)).length := by
    have hkeys : (n.settledTable h pool importMode miniBlocks).values.length =
        (n.transactionTable h pool importMode miniBlocks).keys.length := by
      rw [← map_hash_settledTable, List.length_map]
    rw [hkeys, transactionTable, Table.keys_number, Table.keys, List.length_map]
    exact Table.size_ofList_le _
  have hpaid : (n.rewardTable h pool importMode miniBlocks).values.length ≤
      (miniBlocks.zipIdx.flatMap (n.rewardsOf h pool importMode)).length := by
    rw [Table.length_values]
    exact Table.size_ofList_le _
  -- the tables hold no more than what has been added to them
  have hsum := length_flatMap_add_le n h pool importMode miniBlocks.zipIdx
  omega

end Count

/-! ### The outcome of every transaction -/

/-- The settled form of the record of a listing is as the block is to show it. -/
theorem isSettled_settledForm {b : PlacedMiniBlock} {hash : String} {r : Transaction}
    (hlists : n.ListsTransaction h pool importMode b hash r) (order : UInt32) :
    n.IsSettled h pool miniBlocks b r (n.settledForm h pool miniBlocks r order) := by
  -- what the listing says, before the outcome is drawn
  have hfresh : r.hasResults = false := by cases hlists <;> rfl
  have hinvalid : r.status = .invalid ↔ b.1.type = .invalid := by
    cases hlists with
    | normal type fresh indexed executes found =>
        rw [type]
        show arrivalStatus h.shard b.1.receiverShard = .invalid ↔ _
        rw [arrivalStatus]
        split <;> simp
    | invalid type executes found => exact ⟨fun _ => type, fun _ => rfl⟩
  have harrived : b.1.type ≠ .invalid →
      r.status = if b.1.receiverShard = h.shard then .success else .pending := by
    intro htype
    cases hlists with
    | normal type fresh indexed executes found =>
        show arrivalStatus h.shard b.1.receiverShard = _
        rw [arrivalStatus]
        exact if_congr eq_comm rfl rfl
    | invalid type executes found => exact absurd type htype
  unfold settledForm
  set u := { r with searchOrder := order }.attach (n.resultsOf h pool miniBlocks) r.hash
  have ho : Outcome n u (u.withOutcome n) := Transaction.outcome_withOutcome n u
  have hresults : u.results =
      (n.resultsOf h pool miniBlocks).filter fun x => x.originHash == r.hash := rfl
  have hinvalid : u.status = .invalid ↔ b.1.type = .invalid := hinvalid
  have hdata : (u.withOutcome n).data = u.data := Transaction.data_withOutcome
  have htresults : (u.withOutcome n).results = u.results := Transaction.results_withOutcome
  constructor
  case results =>
    intro x
    rw [htresults, hresults, List.mem_filter, mem_resultsOf, Transaction.hash_withOutcome]
    constructor
    · rintro ⟨⟨key, entry, hentry, rfl⟩, horigin⟩
      exact ⟨key, entry, hentry, beq_iff_eq.mp horigin, rfl⟩
    · rintro ⟨key, entry, hentry, horigin, rfl⟩
      exact ⟨⟨key, entry, hentry, rfl⟩, beq_iff_eq.mpr horigin⟩
  case distinct =>
    rw [htresults, hresults]
    exact (nodup_hash_resultsOf n h pool miniBlocks).sublist (List.filter_sublist.map _)
  case hasResults =>
    rw [htresults]
    exact ho.hasResults_iff hfresh
  case signed =>
    exact ⟨hdata, Transaction.gasLimit_withOutcome, Transaction.gasPrice_withOutcome⟩
  case invalid => exact fun htype => ho.status_of_invalid (hinvalid.mpr htype)
  case failed =>
    intro htype
    rw [hdata, htresults]
    refine ⟨fun hfail => ?_, ho.status_of_failsBy fun hi => htype (hinvalid.mp hi)⟩
    -- without a failure the status is that of the listing, which is success or pending
    by_contra hfails
    have hstatus := ho.status_of_not_failsBy hfails
    rw [hfail, show u.status = r.status from rfl, harrived htype] at hstatus
    split at hstatus <;> exact absurd hstatus (by decide)
  case arrived =>
    rw [hdata, htresults]
    exact fun htype hfails => (ho.status_of_not_failsBy hfails).trans (harrived htype)
  case charged =>
    rw [hdata, htresults, Transaction.gasLimit_withOutcome, Transaction.gasPrice_withOutcome]
    exact fun htype => ho.cost_of_isCharged fun hi => htype (hinvalid.mp hi)
  case uncharged =>
    rw [hdata, htresults]
    intro hcharged
    exact ho.cost_of_not_isCharged (hcharged.imp_left hinvalid.mpr)

/-! ### Main results -/

/-- The transactions of a block come of its listings: first one for each hash that is listed as a
transaction, then one for each that is listed as a reward. -/
theorem settle_transactions_of_listings (n : Network) {block : Block} (hh : block.header = some h)
    (hp : block.pool = some pool) (importMode : Bool) :
    ∃ normal paid, (n.settle block importMode).transactions = normal ++ paid ∧
      n.ShowsListings h pool importMode block.miniBlocks normal paid := by
  refine ⟨_, _, settle_transactions n hh hp importMode, ?_⟩
  constructor
  case onePerHash => exact onePerHash_settledTable n h pool importMode block.miniBlocks
  case last =>
    intro i t ht
    have horder := searchOrder_settledTable ht
    obtain ⟨hash, hget⟩ := Table.mem_values_iff.mp (List.mem_of_getElem? ht)
    obtain ⟨rfl, b, r, hl, hform⟩ := get?_settledTable hget
    rw [horder] at hform
    exact ⟨horder, b, r, hl, hform⟩
  case paidOnePerHash => exact onePerHash_rewardTable n h pool importMode block.miniBlocks
  case paidLast =>
    intro t ht
    obtain ⟨hash, hget⟩ := Table.mem_values_iff.mp ht
    obtain ⟨b, hl⟩ := get?_rewardTable.mp hget
    obtain rfl := hl.lists.hash_eq
    exact ⟨hl.lists.searchOrder_eq, b, hl⟩
  case length_le => exact length_values_add_le n h pool importMode

/-- Two miniblocks list a hash, the last of them as invalid. So there is one transaction, and it is
invalid. -/
theorem settle_transactions_of_two_listings :
    let pool : Pool := { transactions := .ofList [("01", {})], invalid := .ofList [("01", {})] }
    let block : Block :=
      { header := some {}
        miniBlocks := [⟨.transactions, 0, 0, [[1]]⟩, ⟨.invalid, 0, 0, [[1]]⟩]
        pool := some pool }
    let txs := ((default : Network).settle block false).transactions
    txs.map (fun t => (t.hash, t.status)) = [("01", .invalid)] ∧
      ∃ normal paid, txs = normal ++ paid ∧
        (default : Network).ShowsListings {} pool false block.miniBlocks normal paid :=
  ⟨by decide, settle_transactions_of_listings default rfl rfl false⟩

/-- Every transaction of a block that is not a reward is as its last listing and the results of
the pool make it. -/
theorem settle_transactions_isSettled (n : Network) {block : Block} (hh : block.header = some h)
    (hp : block.pool = some pool) (importMode : Bool) :
    ∃ normal paid, (n.settle block importMode).transactions = normal ++ paid ∧
      (∀ t ∈ normal, ∃ b r,
        LastListing (n.ListsTransaction h pool importMode) block.miniBlocks.zipIdx t.hash b r ∧
          n.IsSettled h pool block.miniBlocks b r t) ∧
      ∀ t ∈ paid, ∃ b,
        LastListing (n.ListsReward h pool importMode) block.miniBlocks.zipIdx t.hash b t := by
  refine ⟨_, _, settle_transactions n hh hp importMode, ?_, ?_⟩
  · intro t ht
    obtain ⟨hash, hget⟩ := Table.mem_values_iff.mp ht
    obtain ⟨rfl, b, r, hl, hform⟩ := get?_settledTable hget
    refine ⟨b, r, hl, ?_⟩
    rw [hform]
    exact isSettled_settledForm hl.lists _
  · intro t ht
    obtain ⟨hash, hget⟩ := Table.mem_values_iff.mp ht
    obtain ⟨b, hl⟩ := get?_rewardTable.mp hget
    obtain rfl := hl.lists.hash_eq
    exact ⟨b, hl⟩

/-- A transaction has a result that reports failure, and so it is shown as failed. -/
theorem settle_transactions_isSettled_of_failure :
    let failure : ResultEntry := { result := { originHash := [1], data := errorMark "out of gas" } }
    let pool : Pool :=
      { transactions := .ofList [("01", {})], results := .ofList [("02", failure)] }
    let block : Block :=
      { header := some {}, miniBlocks := [⟨.transactions, 0, 0, [[1]]⟩], pool := some pool }
    let txs := ((default : Network).settle block false).transactions
    txs.map (fun t => (t.hash, t.status, t.results.map (·.hash))) = [("01", .fail, ["02"])] ∧
      ∃ normal paid, txs = normal ++ paid ∧
        (∀ t ∈ normal, ∃ b r,
          LastListing ((default : Network).ListsTransaction {} pool false) block.miniBlocks.zipIdx
            t.hash b r ∧ (default : Network).IsSettled {} pool block.miniBlocks b r t) ∧
        ∀ t ∈ paid, ∃ b,
          LastListing ((default : Network).ListsReward {} pool false) block.miniBlocks.zipIdx
            t.hash b t :=
  ⟨by decide, settle_transactions_isSettled default rfl rfl false⟩

end Network

end ChainIndex
