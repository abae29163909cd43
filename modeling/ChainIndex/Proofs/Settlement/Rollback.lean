import ChainIndex.Proofs.Settlement.Origin
import ChainIndex.Settlement.Rollback

/-!
# What a rollback covers

When a block is taken back, the hashes of its miniblocks are removed, but for those of miniblocks
that were executed earlier and of transactions that leave the shard. Settling the block passes over
earlier miniblocks too, but only over those of transactions. So a record is left behind if it leaves
the shard, or if the miniblock that it comes from was executed earlier and yet made a record: one of
invalid transactions, of rewards or of results (`Network.covers_of_written?`).

A record is compared with what is removed by way of its miniblock. A transaction comes from the last
miniblock that lists it, a result stands in the first one. So the exceptions are stated for these
miniblocks; if some other miniblock lists the same hash, it may be removed all the same.
-/

namespace ChainIndex

/-- A miniblock lists a hash, given in hexadecimal, wherever it is executed. -/
def MiniBlock.Lists (m : MiniBlock) (hash : String) : Prop :=
  hash ∈ m.hashes.map Hex.encode

/-- A miniblock of results lists a result, and the record of the result names it. -/
def Block.Places (b : Block) (r : ContractResult) (p : PlacedMiniBlock) : Prop :=
  p ∈ b.miniBlocks.zipIdx ∧ p.1.type = .results ∧ p.1.Lists r.hash ∧ r.miniBlockHash = p.1.hash

/-- What is removed when a block with a header is taken back, and which records that covers. -/
structure Network.Covers (n : Network) (h : Header) (b : Block) (w : WrittenHashes) : Prop where
  transactions_iff : ∀ hash, hash ∈ w.transactions ↔
    ∃ p ∈ b.miniBlocks.zipIdx, p.1.type ≠ .results ∧ p.1.Lists hash ∧
      h.isProcessed p.2 = false ∧ p.1.leaves h.shard = false
  results_iff : ∀ hash, hash ∈ w.results ↔
    ∃ p ∈ b.miniBlocks.zipIdx, p.1.type = .results ∧ p.1.Lists hash ∧ h.isProcessed p.2 = false
  /-- Every transaction is removed unless it leaves the shard, or is invalid or a reward in a
  miniblock that was executed earlier. -/
  transactions : ∀ t ∈ (n.settle b false).transactions, ∃ p, n.ComesFrom h false b t p ∧
    (t.hash ∈ w.transactions ∨ p.1.leaves h.shard = true ∨
      (p.1.type = .invalid ∨ p.1.type = .rewards) ∧ h.isProcessed p.2 = true)
  /-- Every result that a miniblock places is removed unless that was executed earlier. -/
  results : ∀ r ∈ (n.settle b false).results, r.miniBlockHash ≠ "" → ∃ p, b.Places r p ∧
    (r.hash ∈ w.results ∨ h.isProcessed p.2 = true)

/-! ### What is removed -/

theorem Header.Executes.lists {h : Header} {p : PlacedMiniBlock} {hash : String}
    (he : h.Executes p hash) : p.1.Lists hash := by
  obtain ⟨i, raw, hraw, rfl, -⟩ := he
  exact List.mem_map_of_mem (List.mem_of_getElem? hraw)

theorem MiniBlock.leaves_of_type_ne {m : MiniBlock} (h : m.type ≠ .transactions) (self : UInt32) :
    m.leaves self = false := by
  rw [leaves, beq_eq_false_iff_ne.mpr h, Bool.and_false]

theorem Block.exists_of_written? {b : Block} {w : WrittenHashes} (hw : b.written? = some w) :
    ∃ h, b.header = some h ∧
      (∀ hash, hash ∈ w.transactions ↔
        ∃ p ∈ b.miniBlocks.zipIdx, p.1.type ≠ .results ∧ p.1.Lists hash ∧
          h.isProcessed p.2 = false ∧ p.1.leaves h.shard = false) ∧
      ∀ hash, hash ∈ w.results ↔
        ∃ p ∈ b.miniBlocks.zipIdx, p.1.type = .results ∧ p.1.Lists hash ∧
          h.isProcessed p.2 = false := by
  unfold written? at hw
  split at hw
  · cases hw
  next h hh =>
    split at hw
    · cases hw
    obtain rfl := Option.some.inj hw
    refine ⟨h, hh, fun hash => ?_, fun hash => ?_⟩
    · simp only [List.mem_flatMap, List.mem_filter, Bool.and_eq_true, Bool.not_eq_eq_eq_not,
        Bool.not_true, bne_iff_ne, MiniBlock.Lists]
      constructor
      · rintro ⟨p, ⟨⟨hp, hfresh, hstays⟩, htype⟩, hlists⟩
        exact ⟨p, hp, htype, hlists, hfresh, hstays⟩
      · rintro ⟨p, hp, htype, hlists, hfresh, hstays⟩
        exact ⟨p, ⟨⟨hp, hfresh, hstays⟩, htype⟩, hlists⟩
    · simp only [List.mem_flatMap, List.mem_filter, Bool.and_eq_true, Bool.not_eq_eq_eq_not,
        Bool.not_true, beq_iff_eq, MiniBlock.Lists]
      constructor
      · rintro ⟨p, ⟨⟨hp, hfresh, -⟩, htype⟩, hlists⟩
        exact ⟨p, hp, htype, hlists, hfresh⟩
      · rintro ⟨p, hp, htype, hlists, hfresh⟩
        have hstays : p.1.leaves h.shard = false :=
          MiniBlock.leaves_of_type_ne (by rw [htype]; decide) _
        exact ⟨p, ⟨⟨hp, hfresh, hstays⟩, htype⟩, hlists⟩

/-! ### Where results are placed -/

/-- A result with the hash of a miniblock stands in one that lists it. -/
theorem Network.exists_places {n : Network} {importMode : Bool} {b : Block} {r : ContractResult}
    (hr : r ∈ (n.settle b importMode).results) (hplaced : r.miniBlockHash ≠ "") :
    ∃ p, b.Places r p := by
  obtain ⟨h, pool, key, entry, -, -, -, rfl⟩ := mem_settle_results.mp hr
  cases hfind : b.miniBlocks.find? (·.listsResult key) with
  | none =>
      have hplace : resultPlace h.shard b.miniBlocks key = .unlisted h.shard := by
        rw [resultPlace, hfind]
      rw [hplace] at hplaced
      exact absurd rfl hplaced
  | some m =>
      have hplace : resultPlace h.shard b.miniBlocks key = .ofMiniBlock m := by
        rw [resultPlace, hfind]
      obtain ⟨i, hi⟩ := List.mem_iff_getElem?.mp (List.mem_of_find?_eq_some hfind)
      have hlists := List.find?_some hfind
      rw [MiniBlock.listsResult, Bool.and_eq_true, beq_iff_eq, List.contains_iff_mem] at hlists
      rw [hplace]
      exact ⟨(m, i), List.mem_zipIdx_iff_getElem?.mpr hi, hlists.1, hlists.2, rfl⟩

/-! ### Main result -/

/-- What is removed when a block is taken back covers every record that the block has written, but
for those that leave the shard and for those that are no plain transactions and come from
miniblocks executed earlier. -/
theorem Network.covers_of_written? (n : Network) {b : Block} {w : WrittenHashes}
    (hw : b.written? = some w) : ∃ h, b.header = some h ∧ n.Covers h b w := by
  obtain ⟨h, hh, htxs, hresults⟩ := Block.exists_of_written? hw
  refine ⟨h, hh, htxs, hresults, fun t ht => ?_, fun r hr hplaced => ?_⟩
  · obtain ⟨p, hp⟩ := exists_comesFrom hh ht
    refine ⟨p, hp, ?_⟩
    cases hleaves : p.1.leaves h.shard with
    | true => exact .inr (.inl rfl)
    | false =>
        cases hfresh : h.isProcessed p.2 with
        | false =>
            -- hashes of results are removed apart, and no transaction comes from there
            have htype : p.1.type ≠ .results := by
              rcases hp.kind with ⟨⟨htype, -⟩ | htype, -⟩ | htype <;> rw [htype] <;> decide
            exact .inl ((htxs _).mpr ⟨p, hp.mem, htype, hp.executes.lists, hfresh, hleaves⟩)
        | true =>
            rcases hp.kind with ⟨⟨-, hnot⟩ | htype, -⟩ | htype
            · rw [hfresh] at hnot
              cases hnot
            · exact .inr (.inr ⟨.inr htype, rfl⟩)
            · exact .inr (.inr ⟨.inl htype, rfl⟩)
  · obtain ⟨p, hp⟩ := exists_places hr hplaced
    refine ⟨p, hp, ?_⟩
    cases hfresh : h.isProcessed p.2 with
    | false => exact .inl ((hresults _).mpr ⟨p, hp.1, hp.2.1, hp.2.2.1, hfresh⟩)
    | true => exact .inr rfl

/-- An invalid transaction, a reward and a result whose miniblocks were executed earlier: the block
writes them, and none of them is removed. -/
theorem Network.covers_of_written?_of_processed :
    let processed : MiniBlockHeader := { processing := .processed }
    let b : Block :=
      { header := some { miniBlocks := [processed, processed, processed] }
        miniBlocks := [⟨.invalid, 0, 0, [[1]]⟩, ⟨.rewards, 4294967295, 0, [[2]]⟩,
          ⟨.results, 0, 0, [[3]]⟩]
        pool := some
          { invalid := .ofList [("01", {})]
            rewards := .ofList [("02", default)]
            results := .ofList [("03", {})] } }
    let settled := (default : Network).settle b false
    settled.transactions.map (·.hash) = ["01", "02"] ∧ settled.results.map (·.hash) = ["03"] ∧
      b.written? = some ⟨[], []⟩ ∧
      ∃ h, b.header = some h ∧ (default : Network).Covers h b ⟨[], []⟩ := by
  intro processed b settled
  have hw : b.written? = some ⟨[], []⟩ := by decide
  refine ⟨?_, ?_, hw, covers_of_written? default hw⟩
  · decide
  · decide

end ChainIndex
