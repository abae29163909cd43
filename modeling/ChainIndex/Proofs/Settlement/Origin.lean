import ChainIndex.Proofs.Settlement

/-!
# Where the records of a block come from

Every transaction of a block comes from the last miniblock that lists its hash
(`Network.exists_comesFrom`), and every result from an entry of the pool
(`Network.mem_settle_results`). Drawing the outcome leaves alone where a record goes, so this is
told by the miniblock.

`Network.ComesFrom` keeps the listing whole: the relation that says which miniblock lists the hash,
that it is the last one, and how the record is changed afterwards. What a field of a transaction is
can then be read off by going through the ways of listing, of which there are three.
-/

namespace ChainIndex

namespace Network

/-- A transaction is what the last miniblock that lists its hash makes of it, with its outcome drawn
unless it is a reward. -/
inductive ComesFrom (n : Network) (h : Header) (importMode : Bool) (b : Block) (t : Transaction)
    (p : PlacedMiniBlock) : Prop
  | transaction {pool : Pool} {r : Transaction} (found : b.pool = some pool)
      (last : LastListing (n.ListsTransaction h pool importMode) b.miniBlocks.zipIdx t.hash p r)
      (settled : t = n.settledForm h pool b.miniBlocks r t.searchOrder)
  | reward {pool : Pool} {r : Transaction} (found : b.pool = some pool)
      (last : LastListing (n.ListsReward h pool importMode) b.miniBlocks.zipIdx t.hash p r)
      (unchanged : t = r)

variable {n : Network} {h : Header} {importMode : Bool} {b : Block} {t : Transaction}
  {p : PlacedMiniBlock}

/-! ### Transactions -/

/-- A block without a header or without a pool has no transactions. -/
theorem exists_of_mem_settle (ht : t ∈ (n.settle b importMode).transactions) :
    ∃ h pool, b.header = some h ∧ b.pool = some pool := by
  cases hheader : b.header with
  | none => simp [settle, hheader] at ht
  | some h =>
      cases hpool : b.pool with
      | none => simp [settle, hheader, hpool] at ht
      | some pool => exact ⟨h, pool, rfl, rfl⟩

/-- Every transaction of a block comes from one of its miniblocks. -/
theorem exists_comesFrom (hh : b.header = some h)
    (ht : t ∈ (n.settle b importMode).transactions) :
    ∃ p, n.ComesFrom h importMode b t p := by
  obtain ⟨h', pool, hh', hpool⟩ := exists_of_mem_settle ht
  rw [settle_transactions n hh hpool, List.mem_append] at ht
  rcases ht with ht | ht
  · obtain ⟨hash, hget⟩ := Table.mem_values_iff.mp ht
    obtain ⟨rfl, p, r, hl, hform⟩ := get?_settledTable hget
    exact ⟨p, .transaction hpool hl hform⟩
  · obtain ⟨hash, hget⟩ := Table.mem_values_iff.mp ht
    obtain ⟨p, hl⟩ := get?_rewardTable.mp hget
    obtain rfl := hl.lists.hash_eq
    exact ⟨p, .reward hpool hl rfl⟩

namespace ComesFrom

variable (hp : n.ComesFrom h importMode b t p)
include hp

theorem mem : p ∈ b.miniBlocks.zipIdx := by
  cases hp with
  | transaction _ last _ => exact last.mem
  | reward _ last _ => exact last.mem

theorem executes : h.Executes p t.hash := by
  cases hp with
  | transaction _ last _ => cases last.lists <;> assumption
  | reward _ last _ => cases last.lists; assumption

theorem type_eq : t.type = "" := by
  cases hp with
  | transaction _ last settled =>
      rw [settled, settledForm, Transaction.type_withOutcome]
      cases last.lists <;> rfl
  | reward _ last unchanged =>
      rw [unchanged]
      cases last.lists
      rfl

/-- Settling marks no transaction: what its logs tell is not known yet. -/
theorem unread_marks : t.errorEvent = false ∧ t.completedEvent = false := by
  cases hp with
  | transaction _ last settled =>
      rw [settled, settledForm, Transaction.errorEvent_withOutcome,
        Transaction.completedEvent_withOutcome]
      cases last.lists <;> exact ⟨rfl, rfl⟩
  | reward _ last unchanged =>
      rw [unchanged]
      cases last.lists
      exact ⟨rfl, rfl⟩

/-- A transaction goes where its miniblock goes. -/
theorem receiverShard_eq : t.receiverShard = p.1.receiverShard := by
  cases hp with
  | transaction _ last settled =>
      rw [settled, settledForm, Transaction.receiverShard_withOutcome]
      cases last.lists <;> rfl
  | reward _ last unchanged =>
      rw [unchanged]
      cases last.lists
      rfl

/-- A miniblock of transactions was not executed earlier. Import mode leaves out what goes
elsewhere, unless it is invalid. -/
theorem kind :
    (p.1.type = .transactions ∧ h.isProcessed p.2 = false ∨ p.1.type = .rewards) ∧
        (importMode = true → p.1.receiverShard = h.shard) ∨
      p.1.type = .invalid := by
  cases hp with
  | transaction _ last _ =>
      cases last.lists with
      | normal type fresh indexed _ _ =>
          exact .inl ⟨.inl ⟨type, isProcessed_eq_false_iff.mpr fresh⟩, indexed⟩
      | invalid type _ _ => exact .inr type
  | reward _ last _ =>
      cases last.lists with
      | reward type indexed _ _ => exact .inl ⟨.inr type, indexed⟩

end ComesFrom

/-! ### Results -/

/-- The results of a block are those of its pool, each in its place. -/
theorem mem_settle_results {r : ContractResult} :
    r ∈ (n.settle b importMode).results ↔
      ∃ h pool key entry, b.header = some h ∧ b.pool = some pool ∧
        pool.results.get? key = some entry ∧
        r = n.resultOf h key (resultPlace h.shard b.miniBlocks key) entry := by
  unfold settle
  split
  · next h pool hh hpool =>
      rw [mem_resultsOf, hh, hpool]
      simp only [Option.some.injEq, exists_and_left, exists_eq_left']
  · next hnone =>
      constructor
      · intro hr
        cases hr
      · rintro ⟨h, pool, -, -, hh, hpool, -⟩
        exact absurd hpool (hnone h pool hh)

end Network

end ChainIndex
