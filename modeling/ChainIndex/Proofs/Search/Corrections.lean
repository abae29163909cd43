import ChainIndex.Proofs.Search.Endings

/-!
# Corrections of one's own records

What orphans tell is meant for transactions of other blocks. A block knows an orphan by its
transactions and invalid transactions alone: its rewards do not count, so a result that goes back to
a reward of the same block is an orphan, and the reward is corrected. A result that gives items back
and names no first transaction tells of the empty hash. `Indexer.yields_correctsOthers` says that
these two are the only ways in which a correction goes astray.

Orphans are looked up among the transactions that the miniblocks of a block list, before rewards
are added. So a hash is corrected exactly if a result tells of it and no miniblock lists it
(`Network.corrects_iff`), which is compared with the hashes that the block has. That gives the
condition about rewards, in both directions. The other one is about the documents: their hashes are
the keys of the ends that are known, and of the two sources of ends only results can tell of the
empty hash, since logs are never asked about it.
-/

namespace ChainIndex

/-- A block keeps a correction for a transaction. -/
def Settled.Corrects (s : Settled) (hash : String) : Prop :=
  hash ∈ s.statuses.keys ∨ hash ∈ s.fees.keys

/-- Corrections are for transactions of other blocks, and no document tells how a transaction
without a hash has ended. -/
structure CorrectsOthers (s : Settled) (docs : List Document) : Prop where
  foreign : ∀ t ∈ s.transactions, ¬ s.Corrects t.hash
  named : ∀ d ∈ docs, d.mergesEnding = true → d.id ≠ ""

namespace Network

section

variable (n : Network) (h : Header) (pool : Pool) (importMode : Bool)
  (miniBlocks : List MiniBlock) (hash : String)

/-- Some miniblock makes a transaction of a hash, be it an invalid one. -/
def HasTransaction : Prop :=
  ∃ p ∈ miniBlocks.zipIdx, ∃ t, n.ListsTransaction h pool importMode p hash t

/-- Some miniblock makes a reward of a hash. -/
def HasReward : Prop :=
  ∃ p ∈ miniBlocks.zipIdx, ∃ t, n.ListsReward h pool importMode p hash t

/-- Results leave alone what a block has as a reward only, and they name their first transaction
where they give items back. -/
structure TellsOfOthers (results : List ContractResult) : Prop where
  unpaid : ∀ r ∈ results, ∀ hash, r.TellsCost hash ∨ r.TellsReturn hash →
    n.HasReward h pool importMode miniBlocks hash →
      n.HasTransaction h pool importMode miniBlocks hash
  named : ∀ r ∈ results, r.TellsReturn "" → n.HasTransaction h pool importMode miniBlocks ""

end

variable {n : Network} {b : Block} {h : Header} {pool : Pool} {importMode : Bool} {hash : String}

/-! ### What is corrected

A result tells of the cost of its first transaction or of a return to it. Both corrections are kept
under the same condition, so one lemma says what is common to them. -/

/-- A transaction is corrected if a result tells of it and no miniblock lists it as a
transaction. -/
theorem exists_isOrphan_iff {normal : List Transaction} {results : List ContractResult}
    {miniBlocks : List MiniBlock} {Tells : ContractResult → Prop}
    (hnormal : OnePerHash (n.ListsTransaction h pool importMode) miniBlocks.zipIdx normal)
    (htells : ∀ r, Tells r → r.originHash = hash) :
    (∃ r ∈ results, r.IsOrphan normal ∧ Tells r) ↔
      (∃ r ∈ results, Tells r) ∧ ¬ n.HasTransaction h pool importMode miniBlocks hash := by
  have horphan : ∀ r, Tells r →
      (r.IsOrphan normal ↔ ¬ n.HasTransaction h pool importMode miniBlocks hash) := by
    intro r hr
    rw [HasTransaction, ← hnormal.complete, List.mem_map, ContractResult.IsOrphan, htells r hr]
    simp
  constructor
  · intro hex
    obtain ⟨r, hr, hlost, htold⟩ := hex
    exact ⟨⟨r, hr, htold⟩, (horphan r htold).mp hlost⟩
  · intro hex
    obtain ⟨⟨r, hr, htold⟩, hnone⟩ := hex
    exact ⟨r, hr, (horphan r htold).mpr hnone, htold⟩

theorem mem_keys_statuses_iff (hh : b.header = some h) (hp : b.pool = some pool) :
    hash ∈ (n.settle b importMode).statuses.keys ↔
      (∃ r ∈ (n.settle b importMode).results, r.TellsReturn hash) ∧
        ¬ n.HasTransaction h pool importMode b.miniBlocks hash := by
  rw [(n.keepsCorrections hh hp importMode).statusKeys]
  exact exists_isOrphan_iff (onePerHash_settledTable n h pool importMode b.miniBlocks)
    fun _ hr => hr.origin

theorem mem_keys_fees_iff (hh : b.header = some h) (hp : b.pool = some pool) :
    hash ∈ (n.settle b importMode).fees.keys ↔
      (∃ r ∈ (n.settle b importMode).results, r.TellsCost hash) ∧
        ¬ n.HasTransaction h pool importMode b.miniBlocks hash := by
  rw [(n.keepsCorrections hh hp importMode).feeKeys]
  exact exists_isOrphan_iff (onePerHash_settledTable n h pool importMode b.miniBlocks)
    fun _ hr => hr.origin

theorem corrects_iff (hh : b.header = some h) (hp : b.pool = some pool) :
    (n.settle b importMode).Corrects hash ↔
      (∃ r ∈ (n.settle b importMode).results, r.TellsCost hash ∨ r.TellsReturn hash) ∧
        ¬ n.HasTransaction h pool importMode b.miniBlocks hash := by
  rw [Settled.Corrects, mem_keys_statuses_iff hh hp, mem_keys_fees_iff hh hp, ← or_and_right]
  refine and_congr_left fun _ => ?_
  simp only [and_or_left, exists_or]
  exact or_comm

/-- The transactions of a block are those that miniblocks list, and its rewards. -/
theorem mem_map_hash_settle (hh : b.header = some h) (hp : b.pool = some pool) :
    hash ∈ (n.settle b importMode).transactions.map (·.hash) ↔
      n.HasTransaction h pool importMode b.miniBlocks hash ∨
        n.HasReward h pool importMode b.miniBlocks hash := by
  rw [settle_transactions n hh hp, List.map_append, List.mem_append,
    (onePerHash_settledTable n h pool importMode b.miniBlocks).complete,
    (onePerHash_rewardTable n h pool importMode b.miniBlocks).complete]
  rfl

/-! ### Documents without a hash

A result need not name a transaction that it goes back to. Its log is passed over then, while what
it gives back is not. -/

/-- Only results that give items back tell of the empty hash: logs never do. -/
theorem empty_mem_keys_endings_iff :
    "" ∈ (n.digest importMode b).findings.endings.keys ↔
      "" ∈ (n.settle b importMode).statuses.keys := by
  simp only [Table.mem_keys_iff, get?_endings_digest_eq_some_iff, get?_settle_statuses]
  constructor
  · intro htold
    obtain ⟨e, he⟩ := htold
    rcases he.told with hback | hheard | hheard
    · exact ⟨.fail, rfl, hback⟩
    · exact absurd rfl hheard.1
    · exact absurd rfl hheard.1
  · intro hfailed
    obtain ⟨_, -, hback⟩ := hfailed
    have hsilent : ∀ identifiers, ¬ n.Hears importMode b identifiers "" :=
      fun _ hheard => hheard.1 rfl
    refine ⟨{ status := some .fail }, .inl hback, ?_, ?_, ?_, ?_⟩ <;> simp [hback, hsilent]

end Network

theorem map_id_endingDocuments (index : String) (endings : Table Ending) :
    (endingDocuments index endings).map (·.id) = endings.keys := by
  rw [endingDocuments, List.map_map]
  rfl

/-- The documents about ends are about the transactions whose ends are known. -/
theorem Digested.exists_mergesEnding_iff {d : Digested} {tokens : ResolvedTokens}
    {names : IndexNames} {id : String} :
    (∃ doc ∈ d.documents tokens names, doc.mergesEnding = true ∧ doc.id = id) ↔
      id ∈ d.findings.endings.keys := by
  have hids : ((d.documents tokens names).filter (·.mergesEnding)).map (·.id) =
      d.findings.endings.keys ++ d.findings.endings.keys := by
    rw [filter_mergesEnding_documents, List.map_append, map_id_endingDocuments,
      map_id_endingDocuments]
  have hmem : id ∈ d.findings.endings.keys ++ d.findings.endings.keys ↔
      id ∈ d.findings.endings.keys := by simp
  rw [← hmem, ← hids]
  simp only [List.mem_map, List.mem_filter, and_assoc]

/-! ### Main result -/

/-- Corrections are for transactions of other blocks and name them, but for what results tell of
rewards of the block and of the empty hash. -/
theorem Indexer.yields_correctsOthers (x : Indexer) (store : TokenStore) {b : Block} {h : Header}
    {pool : Pool} (hh : b.header = some h) (hp : b.pool = some pool) :
    let s := x.network.settle b x.importMode
    (∀ hash, s.Corrects hash →
      ¬ x.network.HasTransaction h pool x.importMode b.miniBlocks hash) ∧
    x.Yields store b fun docs =>
      CorrectsOthers s docs ↔
        x.network.TellsOfOthers h pool x.importMode b.miniBlocks s.results := by
  intro s
  refine ⟨fun hash hcorrects => ((Network.corrects_iff hh hp).mp hcorrects).2, ?_⟩
  refine yields_of_documents fun tokens _ => ?_
  constructor
  · intro hothers
    refine ⟨?_, ?_⟩
    -- a reward that no miniblock lists as a transaction would be corrected
    · intro r hr hash htells hreward
      by_contra hnone
      have hmem : hash ∈ s.transactions.map (·.hash) :=
        (Network.mem_map_hash_settle hh hp).mpr (.inr hreward)
      obtain ⟨t, ht, rfl⟩ := List.mem_map.mp hmem
      exact hothers.foreign t ht ((Network.corrects_iff hh hp).mpr ⟨⟨r, hr, htells⟩, hnone⟩)
    · intro r hr htells
      by_contra hnone
      have hkey := (Network.mem_keys_statuses_iff hh hp).mpr ⟨⟨r, hr, htells⟩, hnone⟩
      obtain ⟨doc, hdoc, hmerges, hid⟩ :=
        Digested.exists_mergesEnding_iff.mpr (Network.empty_mem_keys_endings_iff.mpr hkey)
      exact hothers.named doc hdoc hmerges hid
  · intro htold
    refine ⟨?_, ?_⟩
    · intro t ht hcorrects
      obtain ⟨⟨r, hr, htells⟩, hnone⟩ := (Network.corrects_iff hh hp).mp hcorrects
      have hmem := List.mem_map_of_mem (f := (·.hash)) ht
      rcases (Network.mem_map_hash_settle hh hp).mp hmem with hlisted | hreward
      · exact hnone hlisted
      · exact hnone (htold.unpaid r hr _ htells hreward)
    · intro doc hdoc hmerges hid
      have hkey := Network.empty_mem_keys_endings_iff.mp
        (Digested.exists_mergesEnding_iff.mp ⟨doc, hdoc, hmerges, hid⟩)
      obtain ⟨⟨r, hr, htells⟩, hnone⟩ := (Network.mem_keys_statuses_iff hh hp).mp hkey
      exact hnone (htold.named r hr htells)

/-- A result that gives items back goes back to a reward of the block, and another one names no
transaction: both corrections go astray. -/
theorem Indexer.yields_correctsOthers_of_reward :
    let back := Utf8.encode "ESDTNFTTransfer@01@02@75736572206572726f72"
    let pool : Pool :=
      { rewards := .ofList [("01", default)]
        results := .ofList
          [("02", { result := { originHash := [1], data := back } }),
            ("03", { result := { data := back } })] }
    let b : Block :=
      { header := some {}, miniBlocks := [⟨.rewards, 4294967295, 0, [[1]]⟩], pool := some pool }
    let x : Indexer := ⟨default, false, {}⟩
    let s := x.network.settle b x.importMode
    b.header = some {} ∧ b.pool = some pool ∧ s.transactions.map (·.hash) = ["01"] ∧
      s.statuses.keys = ["", "01"] ∧
      ∃ docs, (x.process .empty b).result = .ok docs ∧ ¬ CorrectsOthers s docs ∧
        ¬ x.network.TellsOfOthers {} pool x.importMode b.miniBlocks s.results := by
  intro back pool b x s
  have htxs : s.transactions.map (·.hash) = ["01"] := by decide
  have hstatuses : s.statuses.keys = ["", "01"] := by decide
  obtain ⟨docs, hdocs⟩ := exists_process_result x (fun _ _ => ⟨[], rfl⟩) b
  have hiff := (yields_correctsOthers x .empty (b := b) rfl rfl).2.of_result hdocs
  have hastray : ¬ CorrectsOthers s docs := by
    intro hothers
    obtain ⟨t, ht, heq⟩ := List.mem_map.mp (htxs ▸ List.mem_cons_self)
    refine hothers.foreign t ht (.inl ?_)
    rw [heq, hstatuses]
    decide
  exact ⟨rfl, rfl, htxs, hstatuses, docs, hdocs, hastray, fun htold => hastray (hiff.mpr htold)⟩

end ChainIndex
