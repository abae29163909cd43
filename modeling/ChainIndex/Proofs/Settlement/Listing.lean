import ChainIndex.Proofs.Table
import ChainIndex.Settlement

/-!
# Listings and the records that come of them

A miniblock of transactions, of invalid transactions or of rewards makes a record of each hash that
it lists in its executed part and that the pool has. `Network.ListsTransaction` and
`Network.ListsReward` say this as relations, one miniblock, hash and record at a time, and
`LastListing` picks the miniblock that is the last one to list a hash.

The tables of a block hold exactly the records of the last listings (`get?_transactionTable`,
`get?_rewardTable`). So no listed record is lost, none comes twice, and none is made up.

Transactions and rewards are collected in the same way, so the passage from what one miniblock adds
to a whole table is made once, for any relation and any function that agree
(`get?_ofList_flatMap`). It needs that a miniblock makes at most one record of a hash: a hash may
stand in it twice, and then the same entry of the pool is found twice.
-/

namespace ChainIndex

/-! ### The executed part of a miniblock

The program takes the indexes between two signed bounds, where a bound may be negative or lie behind
the end. `Header.covers` asks of each index by itself. -/

/-- Whether the header says that the hash at an index of the miniblock at a position is executed:
the index lies in the range of the miniblock, or the header does not describe the miniblock. -/
def Header.covers (h : Header) (position index : Nat) : Bool :=
  match h.miniBlocks[position]? with
  | none => true
  | some m =>
    decide (m.firstExecuted.toInt ≤ Int.ofNat index)
      && decide (Int.ofNat index ≤ m.lastExecuted.toInt)

/-- A miniblock lists a hash, given in hexadecimal, in its executed part. -/
def Header.Executes (h : Header) (b : PlacedMiniBlock) (hash : String) : Prop :=
  ∃ (i : Nat) (raw : Bytes),
    b.1.hashes[i]? = some raw ∧ Hex.encode raw = hash ∧ h.covers b.2 i = true

/-- The number of hashes in the executed part of a miniblock. -/
def Header.executedCount (h : Header) (b : PlacedMiniBlock) : Nat :=
  (List.range b.1.hashes.length).countP (h.covers b.2)

/-- What is executed of a miniblock, as a filter by position. Where the header knows nothing of the
miniblock, all of it is. -/
theorem Header.executed_eq (h : Header) (position : Nat) (hashes : List Bytes) :
    h.executed position hashes =
      (hashes.zipIdx.filter fun e => h.covers position e.2).map Prod.fst := by
  unfold executed covers
  cases h.miniBlocks[position]? with
  | none => simp
  | some m => rfl

theorem Header.mem_executed {h : Header} {position : Nat} {hashes : List Bytes} {raw : Bytes} :
    raw ∈ h.executed position hashes ↔
      ∃ i : Nat, hashes[i]? = some raw ∧ h.covers position i = true := by
  rw [executed_eq, List.mem_map]
  constructor
  · rintro ⟨⟨raw, i⟩, he, rfl⟩
    obtain ⟨he, hi⟩ := List.mem_filter.mp he
    exact ⟨i, List.mem_zipIdx_iff_getElem?.mp he, hi⟩
  · rintro ⟨i, he, hi⟩
    exact ⟨(raw, i), List.mem_filter.mpr ⟨List.mem_zipIdx_iff_getElem?.mpr he, hi⟩, rfl⟩

theorem Header.length_executed (h : Header) (b : PlacedMiniBlock) :
    (h.executed b.2 b.1.hashes).length = h.executedCount b := by
  have hsnd : b.1.hashes.zipIdx.map Prod.snd = List.range b.1.hashes.length := by
    rw [List.zipIdx_map_snd, List.range_eq_range']
  rw [executed_eq, List.length_map, ← List.countP_eq_length_filter, executedCount, ← hsnd,
    List.countP_map]
  rfl

/-! ### Records of listings -/

namespace Network

variable (n : Network) (h : Header) (pool : Pool) (importMode : Bool)

/-- The record that a miniblock makes of a hash that it lists: of a transaction, unless the
miniblock was executed earlier or import mode leaves it out, and of an invalid one. -/
inductive ListsTransaction (b : PlacedMiniBlock) (hash : String) : Transaction → Prop
  | normal {entry : TxEntry} (type : b.1.type = .transactions)
      (fresh : ∀ m, h.miniBlocks[b.2]? = some m → m.processing ≠ .processed)
      (indexed : importMode = true → b.1.receiverShard = h.shard)
      (executes : h.Executes b hash)
      (found : pool.transactions.get? hash = some entry) :
      ListsTransaction b hash
        (n.transactionOf h hash (.ofMiniBlock b.1) (arrivalStatus h.shard b.1.receiverShard)
          entry)
  | invalid {entry : TxEntry} (type : b.1.type = .invalid)
      (executes : h.Executes b hash)
      (found : pool.invalid.get? hash = some entry) :
      ListsTransaction b hash (n.transactionOf h hash (.ofMiniBlock b.1) .invalid entry)

/-- The record that a miniblock of rewards makes of a hash that it lists. -/
inductive ListsReward (b : PlacedMiniBlock) (hash : String) : Transaction → Prop
  | reward {entry : RewardEntry} (type : b.1.type = .rewards)
      (indexed : importMode = true → b.1.receiverShard = h.shard)
      (executes : h.Executes b hash)
      (found : pool.rewards.get? hash = some entry) :
      ListsReward b hash
        (n.rewardOf h hash (.ofMiniBlock b.1) (arrivalStatus h.shard b.1.receiverShard) entry)

variable {n h pool importMode}

theorem mem_listed {α : Type} {b : PlacedMiniBlock} {find : String → Option α} {hash : String}
    {record : α} :
    (hash, record) ∈ listed h b find ↔ h.Executes b hash ∧ find hash = some record := by
  rw [listed, List.mem_filterMap]
  constructor
  · rintro ⟨raw, hraw, hmap⟩
    obtain ⟨r, hr, heq⟩ := Option.map_eq_some_iff.mp hmap
    obtain ⟨rfl, rfl⟩ := Prod.mk.inj heq
    obtain ⟨i, hi, hc⟩ := Header.mem_executed.mp hraw
    exact ⟨⟨i, raw, hi, rfl, hc⟩, hr⟩
  · rintro ⟨⟨i, raw, hi, rfl, hc⟩, hr⟩
    exact ⟨raw, Header.mem_executed.mpr ⟨i, hi, hc⟩, by rw [hr]; rfl⟩

theorem length_listed_le {α : Type} (b : PlacedMiniBlock) (find : String → Option α) :
    (listed h b find).length ≤ h.executedCount b := by
  rw [← Header.length_executed]
  exact List.length_filterMap_le ..

theorem isIndexed_eq_true_iff {self receiver : UInt32} :
    isIndexed importMode self receiver = true ↔ (importMode = true → receiver = self) := by
  cases importMode <;> simp [isIndexed]

theorem isProcessed_eq_false_iff {position : Nat} :
    h.isProcessed position = false ↔
      ∀ m, h.miniBlocks[position]? = some m → m.processing ≠ .processed := by
  unfold Header.isProcessed
  cases h.miniBlocks[position]? <;> simp

/-- What a miniblock adds to the transactions is what it lists. -/
theorem mem_transactionsOf {b : PlacedMiniBlock} {hash : String} {t : Transaction} :
    (hash, t) ∈ n.transactionsOf h pool importMode b ↔
      n.ListsTransaction h pool importMode b hash t := by
  constructor
  · intro ht
    unfold transactionsOf at ht
    -- invalid ones are taken whatever the header or import mode says
    split at ht
    · next htype =>
        split at ht
        · exact absurd ht List.not_mem_nil
        · next hskip =>
            simp only [Bool.or_eq_true, Bool.not_eq_eq_eq_not, Bool.not_true, not_or,
              Bool.not_eq_true, Bool.not_eq_false] at hskip
            obtain ⟨⟨k, entry⟩, he, heq⟩ := List.mem_map.mp ht
            obtain ⟨rfl, rfl⟩ := Prod.mk.inj heq
            obtain ⟨hexec, hfound⟩ := mem_listed.mp he
            exact .normal htype (isProcessed_eq_false_iff.mp hskip.1)
              (isIndexed_eq_true_iff.mp hskip.2) hexec hfound
    · next htype =>
        obtain ⟨⟨k, entry⟩, he, heq⟩ := List.mem_map.mp ht
        obtain ⟨rfl, rfl⟩ := Prod.mk.inj heq
        obtain ⟨hexec, hfound⟩ := mem_listed.mp he
        exact .invalid htype hexec hfound
    · exact absurd ht List.not_mem_nil
  · intro ht
    cases ht with
    | normal htype hfresh hindexed hexec hfound =>
        have hskip : (h.isProcessed b.2 || !isIndexed importMode h.shard b.1.receiverShard)
            = false := by
          rw [isProcessed_eq_false_iff.mpr hfresh, isIndexed_eq_true_iff.mpr hindexed]
          rfl
        simp only [transactionsOf, htype, hskip, Bool.false_eq_true, ↓reduceIte]
        exact List.mem_map.mpr ⟨_, mem_listed.mpr ⟨hexec, hfound⟩, rfl⟩
    | invalid htype hexec hfound =>
        simp only [transactionsOf, htype]
        exact List.mem_map.mpr ⟨_, mem_listed.mpr ⟨hexec, hfound⟩, rfl⟩

/-- What a miniblock adds to the rewards is what it lists. -/
theorem mem_rewardsOf {b : PlacedMiniBlock} {hash : String} {t : Transaction} :
    (hash, t) ∈ n.rewardsOf h pool importMode b ↔ n.ListsReward h pool importMode b hash t := by
  constructor
  · intro ht
    unfold rewardsOf at ht
    split at ht
    · next htype =>
        split at ht
        · exact absurd ht List.not_mem_nil
        · next hskip =>
            simp only [Bool.not_eq_eq_eq_not, Bool.not_true, Bool.not_eq_false] at hskip
            obtain ⟨⟨k, entry⟩, he, heq⟩ := List.mem_map.mp ht
            obtain ⟨rfl, rfl⟩ := Prod.mk.inj heq
            obtain ⟨hexec, hfound⟩ := mem_listed.mp he
            exact .reward htype (isIndexed_eq_true_iff.mp hskip) hexec hfound
    · exact absurd ht List.not_mem_nil
  · rintro ⟨htype, hindexed, hexec, hfound⟩
    simp only [rewardsOf, htype, isIndexed_eq_true_iff.mpr hindexed, Bool.not_true,
      Bool.false_eq_true, ↓reduceIte]
    exact List.mem_map.mpr ⟨_, mem_listed.mpr ⟨hexec, hfound⟩, rfl⟩

/-- A miniblock makes one record of a hash: it has one type, and the pool one entry. -/
theorem ListsTransaction.eq {b : PlacedMiniBlock} {hash : String} {t u : Transaction}
    (ht : n.ListsTransaction h pool importMode b hash t)
    (hu : n.ListsTransaction h pool importMode b hash u) : t = u := by
  cases ht with
  | normal htype _ _ _ hfound =>
      cases hu with
      | normal _ _ _ _ hfound' => rw [Option.some.inj (hfound.symm.trans hfound')]
      | invalid htype' _ _ => exact absurd (htype.symm.trans htype') (by decide)
  | invalid htype _ hfound =>
      cases hu with
      | normal htype' _ _ _ _ => exact absurd (htype.symm.trans htype') (by decide)
      | invalid _ _ hfound' => rw [Option.some.inj (hfound.symm.trans hfound')]

theorem ListsReward.eq {b : PlacedMiniBlock} {hash : String} {t u : Transaction}
    (ht : n.ListsReward h pool importMode b hash t)
    (hu : n.ListsReward h pool importMode b hash u) : t = u := by
  obtain ⟨_, _, _, hfound⟩ := ht
  obtain ⟨_, _, _, hfound'⟩ := hu
  rw [Option.some.inj (hfound.symm.trans hfound')]

theorem ListsTransaction.hash_eq {b : PlacedMiniBlock} {hash : String} {t : Transaction}
    (ht : n.ListsTransaction h pool importMode b hash t) : t.hash = hash := by
  cases ht <;> rfl

theorem ListsReward.hash_eq {b : PlacedMiniBlock} {hash : String} {t : Transaction}
    (ht : n.ListsReward h pool importMode b hash t) : t.hash = hash := by
  cases ht
  rfl

theorem ListsReward.searchOrder_eq {b : PlacedMiniBlock} {hash : String} {t : Transaction}
    (ht : n.ListsReward h pool importMode b hash t) : t.searchOrder = 0 := by
  cases ht
  rfl

end Network

/-! ### The last listing of a hash -/

/-- A miniblock is the last one of a list that makes a record of a hash. -/
def LastListing (Lists : PlacedMiniBlock → String → Transaction → Prop)
    (bs : List PlacedMiniBlock) (hash : String) (b : PlacedMiniBlock) (t : Transaction) : Prop :=
  ∃ before after, bs = before ++ b :: after ∧ Lists b hash t ∧
    ∀ c ∈ after, ∀ u, ¬ Lists c hash u

/-- Records in ascending order of their hashes, one for each hash of which some miniblock makes a
record. -/
structure OnePerHash (Lists : PlacedMiniBlock → String → Transaction → Prop)
    (bs : List PlacedMiniBlock) (ts : List Transaction) : Prop where
  ascending : (ts.map (·.hash)).Pairwise (· < ·)
  complete : ∀ hash, hash ∈ ts.map (·.hash) ↔ ∃ b ∈ bs, ∃ t, Lists b hash t

section Collected

variable {Lists : PlacedMiniBlock → String → Transaction → Prop}
  {add : PlacedMiniBlock → List (String × Transaction)} {bs : List PlacedMiniBlock}

/-- The table that miniblocks add to one after another holds the records of the last listings. -/
theorem get?_ofList_flatMap (hadd : ∀ b hash t, (hash, t) ∈ add b ↔ Lists b hash t)
    (heq : ∀ b hash t u, Lists b hash t → Lists b hash u → t = u) {hash : String}
    {t : Transaction} :
    (Table.ofList (bs.flatMap add)).get? hash = some t ↔
      ∃ b, LastListing Lists bs hash b t := by
  -- a miniblock may list a hash twice, but it finds one record
  have hlast : ∀ b, lastValue? hash (add b) = some t ↔ Lists b hash t := by
    intro b
    rw [lastValue?_eq_some_iff_mem, hadd]
    intro v w hv hw
    exact heq b hash v w ((hadd b hash v).mp hv) ((hadd b hash w).mp hw)
  have hnone : ∀ b, hash ∉ (add b).map Prod.fst ↔ ∀ u, ¬ Lists b hash u := by
    intro b
    simp only [List.mem_map, Prod.exists, exists_and_right, exists_eq_right, not_exists, hadd]
  rw [Table.get?_ofList, lastValue?_flatMap]
  simp only [hlast, hnone]
  constructor
  · rintro ⟨before, b, after, hbs, hb, hafter⟩
    exact ⟨b, before, after, hbs, hb, hafter⟩
  · rintro ⟨b, before, after, hbs, hb, hafter⟩
    exact ⟨before, b, after, hbs, hb, hafter⟩

/-- A table that is collected from miniblocks has the hashes that some miniblock lists; which
listing is shown is another question, and the last one is. -/
theorem mem_keys_ofList_flatMap (hadd : ∀ b hash t, (hash, t) ∈ add b ↔ Lists b hash t)
    {hash : String} :
    hash ∈ (Table.ofList (bs.flatMap add)).keys ↔ ∃ b ∈ bs, ∃ t, Lists b hash t := by
  rw [Table.mem_keys_ofList, List.map_flatMap, List.mem_flatMap]
  simp only [List.mem_map, Prod.exists, exists_and_right, exists_eq_right, hadd]

end Collected

namespace LastListing

variable {Lists : PlacedMiniBlock → String → Transaction → Prop} {bs : List PlacedMiniBlock}
  {hash : String} {b : PlacedMiniBlock} {t : Transaction}

theorem lists (hl : LastListing Lists bs hash b t) : Lists b hash t := by
  obtain ⟨_, _, _, hb, _⟩ := hl
  exact hb

theorem mem (hl : LastListing Lists bs hash b t) : b ∈ bs := by
  obtain ⟨before, after, rfl, _, _⟩ := hl
  exact List.mem_append_right before List.mem_cons_self

end LastListing

/-! ### The tables of a block -/

namespace Network

variable {n : Network} {h : Header} {pool : Pool} {importMode : Bool} {miniBlocks : List MiniBlock}

/-- A transaction of the table is the record of a last listing, with its number. -/
theorem get?_transactionTable {hash : String} {t : Transaction}
    (ht : (n.transactionTable h pool importMode miniBlocks).get? hash = some t) :
    ∃ b r, LastListing (n.ListsTransaction h pool importMode) miniBlocks.zipIdx hash b r ∧
      t = { r with searchOrder := t.searchOrder } := by
  obtain ⟨r, i, hr, rfl⟩ := Table.exists_of_get?_number ht
  obtain ⟨b, hb⟩ := (get?_ofList_flatMap (fun _ _ _ => mem_transactionsOf)
    fun _ _ _ _ => ListsTransaction.eq).mp hr
  exact ⟨b, r, hb, rfl⟩

theorem mem_keys_transactionTable {hash : String} :
    hash ∈ (n.transactionTable h pool importMode miniBlocks).keys ↔
      ∃ b ∈ miniBlocks.zipIdx, ∃ t, n.ListsTransaction h pool importMode b hash t := by
  rw [transactionTable, Table.keys_number]
  exact mem_keys_ofList_flatMap fun _ _ _ => mem_transactionsOf

/-- A reward of the table is the record of a last listing. -/
theorem get?_rewardTable {hash : String} {t : Transaction} :
    (n.rewardTable h pool importMode miniBlocks).get? hash = some t ↔
      ∃ b, LastListing (n.ListsReward h pool importMode) miniBlocks.zipIdx hash b t :=
  get?_ofList_flatMap (fun _ _ _ => mem_rewardsOf) fun _ _ _ _ => ListsReward.eq

theorem mem_keys_rewardTable {hash : String} :
    hash ∈ (n.rewardTable h pool importMode miniBlocks).keys ↔
      ∃ b ∈ miniBlocks.zipIdx, ∃ t, n.ListsReward h pool importMode b hash t :=
  mem_keys_ofList_flatMap fun _ _ _ => mem_rewardsOf

end Network

end ChainIndex
