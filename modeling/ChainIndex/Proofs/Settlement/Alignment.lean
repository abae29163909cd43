import ChainIndex.Proofs.Call.Alignment
import ChainIndex.Proofs.Settlement.Fields

/-!
# Which lists of a record belong together

A record shows the values of its data as texts and as numbers, and its receivers with their shards.
The texts are dropped together if one of them is too long, the numbers if one value has none, so
each of both lists is empty or has a place for every value; receivers and shards always stand side
by side (`Network.settle_aligned`).

The summary that is meant is that of the data the record shows. For a transaction it stays the same
through all that happens after the record is made, since drawing the outcome touches none of these
fields. A reward has no data, and the summary of no data lists nothing, so rewards are no exception.
-/

namespace ChainIndex

/-- A record shows lists that its data names: the values in full or not at all, a number for each of
them or none, and each receiver with its shard. -/
structure ShowsLists (values : List String) (valuesNum : List Binary64) (receivers : List String)
    (shards : List UInt32) (said : CallSummary) : Prop where
  paired : receivers.length = shards.length
  values : values = [] ∨ values = said.values
  valuesNum : valuesNum = [] ∨ valuesNum.length = said.values.length
  receivers : receivers = said.receivers
  shards : shards = said.receiverShards

namespace Network

/-- The records of a block show lists that belong together. -/
structure ShowsAligned (n : Network) (block : Block) (s : Settled) : Prop where
  transactions : ∀ t ∈ s.transactions, ∃ pool said, block.pool = some pool ∧
    n.PoolSays pool t.hash t.data said ∧
    ShowsLists t.tokenValues t.tokenValuesNum t.receivers t.receiverShards said
  results : ∀ r ∈ s.results, ∃ pool entry, block.pool = some pool ∧
    pool.results.get? r.hash = some entry ∧
    ShowsLists r.tokenValues r.tokenValuesNum r.receivers r.receiverShards
      (n.read entry.result.data entry.result.sender entry.result.receiver)
  /-- The results that are attached to transactions are among them. -/
  attached : ∀ t ∈ s.transactions, ∀ r ∈ t.results, r ∈ s.results

end Network

/-! ### Values and their numbers -/

/-- A traversal without an error keeps every place. -/
theorem length_of_mapM_eq_ok {ε α β : Type} {f : α → Except ε β} {xs : List α} {ys : List β}
    (h : xs.mapM f = .ok ys) : ys.length = xs.length := by
  induction xs generalizing ys with
  | nil =>
      cases h
      rfl
  | cons x xs ih =>
      rw [List.mapM_cons] at h
      cases hx : f x with
      | error e =>
          rw [hx] at h
          cases h
      | ok y =>
          cases hxs : xs.mapM f with
          | error e =>
              rw [hx, hxs] at h
              cases h
          | ok ys' =>
              rw [hx, hxs] at h
              cases h
              rw [List.length_cons, List.length_cons, ih hxs]

namespace Network

variable {n : Network} {h : Header} {importMode : Bool} {b : Block} {t : Transaction}
  {p : PlacedMiniBlock}

theorem tokenValuesNum_eq_nil_or_length (n : Network) (values : List String) :
    n.tokenValuesNum values = [] ∨ (n.tokenValuesNum values).length = values.length := by
  unfold tokenValuesNum
  split
  · next xs hxs => exact .inr (length_of_mapM_eq_ok hxs)
  · exact .inl rfl

/-- What a record is built with: lists that its data names. -/
theorem showsLists_of_said (n : Network) {said : CallSummary} (hsaid : said.IsAligned) :
    ShowsLists (if areShortValues said.values then said.values else [])
      (n.tokenValuesNum said.values) said.receivers said.receiverShards said := by
  refine ⟨hsaid.shards, ?_, n.tokenValuesNum_eq_nil_or_length said.values, rfl, rfl⟩
  split
  · exact .inr rfl
  · exact .inl rfl

/-! ### Main result -/

theorem ListsTransaction.showsLists {pool : Pool} {hash : String} {r : Transaction}
    (hr : n.ListsTransaction h pool importMode p hash r) :
    ∃ said, n.PoolSays pool hash r.data said ∧
      ShowsLists r.tokenValues r.tokenValuesNum r.receivers r.receiverShards said := by
  cases hr with
  | normal type fresh indexed executes found =>
      exact ⟨_, .normal found, n.showsLists_of_said (CallReader.isAligned_read _ _ _ _)⟩
  | invalid type executes found =>
      exact ⟨_, .invalid found, n.showsLists_of_said (CallReader.isAligned_read _ _ _ _)⟩

/-- A reward lists nothing, and there is nothing to list. -/
theorem ListsReward.showsLists {pool : Pool} {hash : String} {r : Transaction}
    (hr : n.ListsReward h pool importMode p hash r) :
    ∃ said, n.PoolSays pool hash r.data said ∧
      ShowsLists r.tokenValues r.tokenValuesNum r.receivers r.receiverShards said := by
  cases hr with
  | reward type indexed executes found =>
      refine ⟨_, .reward found, ?_⟩
      rw [read_nil]
      exact ⟨rfl, .inl rfl, .inl rfl, rfl, rfl⟩

/-- Drawing the outcome leaves the lists of a transaction alone. -/
theorem ComesFrom.showsLists (hp : n.ComesFrom h importMode b t p) :
    ∃ pool said, b.pool = some pool ∧ n.PoolSays pool t.hash t.data said ∧
      ShowsLists t.tokenValues t.tokenValuesNum t.receivers t.receiverShards said := by
  cases hp with
  | @transaction pool r found last settled =>
      obtain ⟨said, hsaid, hshows⟩ := last.lists.showsLists
      have hdata : t.data = r.data := by
        rw [settled]
        exact Transaction.data_withOutcome
      have hvalues : t.tokenValues = r.tokenValues := by
        rw [settled]
        exact Transaction.tokenValues_withOutcome
      have hvaluesNum : t.tokenValuesNum = r.tokenValuesNum := by
        rw [settled]
        exact Transaction.tokenValuesNum_withOutcome
      have hreceivers : t.receivers = r.receivers := by
        rw [settled]
        exact Transaction.receivers_withOutcome
      have hshards : t.receiverShards = r.receiverShards := by
        rw [settled]
        exact Transaction.receiverShards_withOutcome
      rw [hdata, hvalues, hvaluesNum, hreceivers, hshards]
      exact ⟨pool, said, found, hsaid, hshows⟩
  | @reward pool r found last unchanged =>
      obtain ⟨said, hsaid, hshows⟩ := last.lists.showsLists
      subst unchanged
      exact ⟨pool, said, found, hsaid, hshows⟩

/-- The lists that reading data fills belong together, and so do those that the records of a block
show of them. -/
theorem settle_aligned (n : Network) (b : Block) (importMode : Bool) :
    (∀ data sender receiver, (n.read data sender receiver).IsAligned) ∧
      n.ShowsAligned b (n.settle b importMode) := by
  refine ⟨CallReader.isAligned_read n.toCallReader, ?_, ?_, ?_⟩
  · intro t ht
    obtain ⟨h, pool, hh, -⟩ := exists_of_mem_settle ht
    obtain ⟨p, hp⟩ := exists_comesFrom hh ht
    exact hp.showsLists
  · intro r hr
    obtain ⟨h, pool, key, entry, -, hpool, hentry, rfl⟩ := mem_settle_results.mp hr
    exact ⟨pool, entry, hpool, hentry, n.showsLists_of_said (CallReader.isAligned_read _ _ _ _)⟩
  -- results are attached from those of the block
  · intro t ht
    obtain ⟨h, pool, hh, -⟩ := exists_of_mem_settle ht
    obtain ⟨p, hp⟩ := exists_comesFrom hh ht
    exact hp.results_subset hh

end Network

end ChainIndex
