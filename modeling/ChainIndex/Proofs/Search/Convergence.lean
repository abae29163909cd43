import ChainIndex.Proofs.Events.Reading
import ChainIndex.Proofs.Indexer
import ChainIndex.Proofs.Search.Cost
import ChainIndex.Proofs.Settlement

/-!
# Two shards write one transaction

A transaction from one shard to another is written by both, and nobody knows which of them comes
first. `documents_converge` says that it does not matter: whatever else the two blocks hold, and
whatever was settled from them, the two documents leave the same body in either order. For a plain
token transfer that is what the destination shows with the cost that the source shows, and what the
destination shows otherwise.

How a transaction is written depends on little of it: its shards, and whether it is a plain token
transfer (`Transaction.route`). These were signed, so the two shards agree on them, and nothing that
is settled later changes them. So the proof has two halves that know nothing of each other. One
follows a record through the settling and the logs of its block, and shows that it is the only one
of its hash and keeps its route (`Block.Carries.filter_digest`). The other is about two actions on
what is stored under one identifier (`Transaction.run_action_comm`). Both shards write with scripts
that say what they keep, so nothing has to be known of the engine that runs all others.
-/

namespace ChainIndex

/-! ### Two documents in either order -/

/-- The bodies that are stored, by index and identifier. -/
abbrev Stored := String → String → Option Json

/-- What is stored after a document has been written. -/
def Document.write (engine : UpdateScript → Json → Json → Json) (d : Document) (stored : Stored) :
    Stored :=
  fun index id =>
    if index = d.index ∧ id = d.id then d.action.run engine (stored index id)
    else stored index id

/-- Documents for one identifier commute if their actions do on what is stored there. -/
theorem Document.write_comm {engine : UpdateScript → Json → Json → Json} {d e : Document}
    {stored : Stored} (hindex : d.index = e.index) (hid : d.id = e.id)
    (h : e.action.run engine (d.action.run engine (stored d.index d.id)) =
      d.action.run engine (e.action.run engine (stored d.index d.id))) :
    e.write engine (d.write engine stored) = d.write engine (e.write engine stored) := by
  funext index id
  unfold write
  rw [← hindex, ← hid]
  by_cases hhere : index = d.index ∧ id = d.id
  · obtain ⟨rfl, rfl⟩ := hhere
    simpa using h
  · simp [hhere]

namespace Transaction

variable {source target : UInt32} {s t : Transaction}

/-- What decides how the document of a transaction is written: its hash, its shards, and whether it
is a plain token transfer. -/
def route (t : Transaction) : String × UInt32 × UInt32 × Bool :=
  (t.hash, t.senderShard, t.receiverShard, t.isPlainTokenTransfer)

/-- Neither its outcome nor its number changes how a transaction is written. -/
theorem route_settledForm (n : Network) (h : Header) (pool : Pool) (miniBlocks : List MiniBlock)
    (r : Transaction) (order : UInt32) :
    (n.settledForm h pool miniBlocks r order).route = r.route :=
  (congrArg route (withOutcome_frame n _) :)

/-- What the shard that a transaction leaves does to its document. -/
theorem action_of_leaves (h : s.leaves source = true) :
    s.action source =
      if s.isPlainTokenTransfer then
        .update (.replace (.updateFee s.gasUsed s.fee s.feeNum)) s.toJson
      else .update (.replace .keepExisting) s.toJson := by
  rw [action, if_pos h]

/-- What the shard that a transaction comes to does to its document. -/
theorem action_of_arrives (h : t.arrives target = true) :
    t.action target =
      if t.isPlainTokenTransfer then .update (.replace (.keepFields costFields)) t.toJson
      else .put t.toJson := by
  obtain ⟨hne, hreceiver⟩ := Bool.and_eq_true_iff.mp h
  have hsender : (t.senderShard == target) = false := by
    rw [← beq_iff_eq.mp hreceiver]
    simpa using hne
  have hleaves : t.leaves target = false := by rw [leaves, hsender, Bool.and_false]
  -- the two other ways to write a transaction are for one shard only
  have hinside : t.transfersItemsInside = false := by
    rw [transfersItemsInside, show (t.senderShard == t.receiverShard) = false by simpa using hne,
      Bool.false_and]
  simp only [action, hleaves, hinside, h, Bool.and_true, Bool.false_eq_true, ↓reduceIte]

/-- Whichever of two shards writes a transaction first, the body that is left is the same. -/
theorem run_action_comm (engine : UpdateScript → Json → Json → Json)
    (hs : s.leaves source = true) (ht : t.arrives target = true)
    (hplain : s.isPlainTokenTransfer = t.isPlainTokenTransfer) :
    (t.action target).run engine ((s.action source).run engine none) =
      (s.action source).run engine ((t.action target).run engine none) := by
  rw [action_of_leaves hs, action_of_arrives ht, hplain]
  by_cases hp : t.isPlainTokenTransfer
  · rw [if_pos hp, if_pos hp]
    simp only [Action.run]
    rw [apply_keepFields_costFields, apply_updateFee]
  · rw [if_neg hp, if_neg hp]
    rfl

end Transaction

/-! ### A block that carries a transaction

The hash has to be listed once only. A second listing might make another record of it, with other
shards, and the last one is shown. -/

/-- A shard makes a block that executes a transaction on its way from one shard to another: the
miniblock `p` lists it and no other one does, and the pool has it. -/
structure Block.Carries (b : Block) (h : Header) (pool : Pool) (p : PlacedMiniBlock)
    (entry : TxEntry) (source target : UInt32) (hash : String) : Prop where
  hasHeader : b.header = some h
  hasPool : b.pool = some pool
  shard : h.shard = b.shard
  listed : p ∈ b.miniBlocks.zipIdx
  type : p.1.type = .transactions
  sender : p.1.senderShard = source
  receiver : p.1.receiverShard = target
  fresh : ∀ m, h.miniBlocks[p.2]? = some m → m.processing ≠ .processed
  executes : h.Executes p hash
  found : pool.transactions.get? hash = some entry
  alone : ∀ c ∈ b.miniBlocks.zipIdx, c ≠ p → hash ∉ c.1.hashes.map Hex.encode

namespace Block.Carries

variable {n : Network} {b : Block} {h : Header} {pool : Pool} {p : PlacedMiniBlock}
  {entry : TxEntry} {source target : UInt32} {hash : String}

/-- Nothing but the one listing makes a record of the hash. -/
theorem eq_of_executes (hc : b.Carries h pool p entry source target hash) {c : PlacedMiniBlock}
    (hmem : c ∈ b.miniBlocks.zipIdx) (hexec : h.Executes c hash) : c = p := by
  by_contra hne
  obtain ⟨i, raw, hraw, rfl, -⟩ := hexec
  exact hc.alone c hmem hne (List.mem_map_of_mem (List.mem_of_getElem? hraw))

/-- The record that the listing makes. -/
def record (n : Network) (h : Header) (p : PlacedMiniBlock) (entry : TxEntry) (hash : String) :
    Transaction :=
  n.transactionOf h hash (.ofMiniBlock p.1) (arrivalStatus h.shard p.1.receiverShard) entry

/-- The hash has exactly one settled transaction, and it comes of the one listing. -/
theorem filter_settle (hc : b.Carries h pool p entry source target hash) :
    ∃ order, ((n.settle b false).transactions.filter fun t => t.hash == hash) =
      [n.settledForm h pool b.miniBlocks (record n h p entry hash) order] := by
  have hlists : n.ListsTransaction h pool false p hash (record n h p entry hash) :=
    .normal hc.type hc.fresh (by simp) hc.executes hc.found
  obtain ⟨t, ht⟩ := Table.mem_keys_iff.mp (show
      hash ∈ (n.settledTable h pool false b.miniBlocks).keys by
    rw [Network.settledTable, Table.keys_map, Network.mem_keys_transactionTable]
    exact ⟨p, hc.listed, _, hlists⟩)
  obtain ⟨rfl, c, r, hlast, hform⟩ := Network.get?_settledTable ht
  obtain rfl : c = p := by
    refine hc.eq_of_executes hlast.mem ?_
    cases hlast.lists with
    | normal _ _ _ executes _ => exact executes
    | invalid _ executes _ => exact executes
  obtain rfl := hlast.lists.eq hlists
  -- a reward with the hash would come of another listing
  have hpaid : (((n.rewardTable h pool false b.miniBlocks).values).filter
      fun u => u.hash == t.hash) = [] := by
    rw [List.filter_eq_nil_iff]
    intro u hu heq
    have hkey : u.hash ∈ (n.rewardTable h pool false b.miniBlocks).keys := by
      rw [← Network.map_hash_rewardTable]
      exact List.mem_map_of_mem hu
    rw [beq_iff_eq.mp heq] at hkey
    obtain ⟨c', hc', v, htype, -, executes, -⟩ := Network.mem_keys_rewardTable.mp hkey
    obtain rfl := hc.eq_of_executes hc' executes
    exact absurd (htype.symm.trans hc.type) (by decide)
  have hnodup : ((n.settledTable h pool false b.miniBlocks).values.map (·.hash)).Nodup := by
    rw [Network.map_hash_settledTable]
    exact Table.nodup_keys _
  refine ⟨t.searchOrder, ?_⟩
  rw [Network.settle_transactions n hc.hasHeader hc.hasPool, List.filter_append, hpaid,
    List.append_nil, ← hform]
  exact filter_eq_singleton hnodup (Table.mem_values_iff.mpr ⟨_, ht⟩)

/-- The logs leave the block exactly one transaction with the hash, which is written like the
record. -/
theorem filter_digest (hc : b.Carries h pool p entry source target hash) :
    ∃ t, ((n.digest false b).settled.transactions.filter fun t => t.hash == hash) = [t] ∧
      t.route = (hash, source, target, (record n h p entry hash).isPlainTokenTransfer) := by
  obtain ⟨order, hsettled⟩ := hc.filter_settle (n := n)
  have hlook : (n.digest false b).settled.transactions.map (·.unread) =
      (n.settle b false).transactions.map (·.unread) :=
    (Network.reads_readLogs _ b.logs).map_unread
  -- what logs change is no part of the look, but the hash is
  have hfilter := congrArg (List.filter fun t => t.hash == hash) hlook
  rw [List.filter_map, List.filter_map] at hfilter
  have hone : ((n.digest false b).settled.transactions.filter fun t => t.hash == hash).map
      (·.unread) =
      [(n.settledForm h pool b.miniBlocks (record n h p entry hash) order).unread] := by
    rw [← List.map_singleton, ← hsettled]
    exact hfilter
  obtain ⟨t, ht, htu⟩ := List.map_eq_singleton_iff.mp hone
  refine ⟨t, ht, ?_⟩
  calc t.route = (n.settledForm h pool b.miniBlocks (record n h p entry hash) order).route :=
        (congrArg Transaction.route htu :)
    _ = (record n h p entry hash).route := Transaction.route_settledForm ..
    _ = _ := by
        rw [← hc.sender, ← hc.receiver]
        rfl

end Block.Carries

/-! ### The documents of a transaction

The two blocks are processed by themselves, each with a store of its own, and their documents are
written later, one after the other. -/

/-- Of a block, a document is the only one in the index of transactions that shows a transaction
with a hash, and every run that succeeds writes it. -/
structure Indexer.WritesOnly (x : Indexer) (b : Block) (hash : String) (d : Document) : Prop where
  index : d.index = x.names.transactions
  id : d.id = hash
  only : ∀ e, e = d ↔ ∃ t ∈ (x.network.digest x.importMode b).settled.transactions,
    t.hash = hash ∧ e = t.document x.names.transactions b.shard
  written : ∀ store docs, (x.process store b).result = .ok docs → d ∈ docs

namespace Indexer

variable {x : Indexer} {b : Block} {hash : String} {t : Transaction}

theorem writesOnly_document
    (ht : ((x.network.digest x.importMode b).settled.transactions.filter
      fun t => t.hash == hash) = [t]) :
    x.WritesOnly b hash (t.document x.names.transactions b.shard) := by
  have hmem : ∀ u, u ∈ (x.network.digest x.importMode b).settled.transactions ∧ u.hash = hash ↔
      u = t := by
    intro u
    have hu : u = t ↔ u ∈ [t] := List.mem_singleton.symm
    rw [hu, ← ht, List.mem_filter, beq_iff_eq]
  constructor
  case index => rfl
  case id => exact ((hmem t).mpr rfl).2
  case only =>
    intro e
    constructor
    · rintro rfl
      exact ⟨t, ((hmem t).mpr rfl).1, ((hmem t).mpr rfl).2, rfl⟩
    · rintro ⟨u, hu, huhash, rfl⟩
      rw [(hmem u).mp ⟨hu, huhash⟩]
  case written =>
    intro store docs hdocs
    obtain ⟨tokens, -, rfl⟩ := process_result_eq_ok_iff.mp hdocs
    simp only [Digested.documents, Digested.recordDocuments, transactionDocuments, List.mem_append]
    exact Or.inl (Or.inl (Or.inl (Or.inl (Or.inl (Or.inl (Or.inl (Or.inl (Or.inl
      (List.mem_map_of_mem ((hmem t).mpr rfl).1)))))))))

/-- A transaction between two shards is stored alike, whichever of them writes it first. The blocks
of the two shards agree on what was signed; their other contents are free. -/
theorem documents_converge (x : Indexer) (hmode : x.importMode = false) {source target : UInt32}
    (hne : source ≠ target) {hash : String} {a b : Block} {ha hb : Header} {poola poolb : Pool}
    {pa pb : PlacedMiniBlock} {ea eb : TxEntry}
    (hsource : a.Carries ha poola pa ea source target hash) (hatsource : a.shard = source)
    (htarget : b.Carries hb poolb pb eb source target hash) (hattarget : b.shard = target)
    (hsigned : ea.transaction = eb.transaction) :
    ∃ da db, x.WritesOnly a hash da ∧ x.WritesOnly b hash db ∧
      ∀ engine (stored : Stored), stored x.names.transactions hash = none →
        db.write engine (da.write engine stored) = da.write engine (db.write engine stored) := by
  obtain ⟨s, hs, hsroute⟩ := hsource.filter_digest (n := x.network)
  obtain ⟨t, ht, htroute⟩ := htarget.filter_digest (n := x.network)
  obtain ⟨hshash, hssender, hsreceiver, hsplain⟩ : _ ∧ _ ∧ _ ∧ _ := by
    simpa only [Transaction.route, Prod.mk.injEq] using hsroute
  obtain ⟨hthash, htsender, htreceiver, htplain⟩ : _ ∧ _ ∧ _ ∧ _ := by
    simpa only [Transaction.route, Prod.mk.injEq] using htroute
  refine ⟨_, _, writesOnly_document (hmode ▸ hs), writesOnly_document (hmode ▸ ht), ?_⟩
  intro engine stored hstored
  have hleaves : s.leaves a.shard = true := by
    simp [Transaction.leaves, hssender, hsreceiver, hatsource, hne]
  have harrives : t.arrives b.shard = true := by
    simp [Transaction.arrives, htsender, htreceiver, hattarget, hne]
  have hplain : s.isPlainTokenTransfer = t.isPlainTokenTransfer := by
    rw [hsplain, htplain]
    simp only [Block.Carries.record, Network.transactionOf, Transaction.isPlainTokenTransfer,
      hsigned]
  refine Document.write_comm rfl (hshash.trans hthash.symm) ?_
  have hnone : stored x.names.transactions s.hash = none := by
    rw [hshash]
    exact hstored
  show (t.action b.shard).run engine ((s.action a.shard).run engine
      (stored x.names.transactions s.hash)) =
    (s.action a.shard).run engine ((t.action b.shard).run engine
      (stored x.names.transactions s.hash))
  rw [hnone]
  exact Transaction.run_action_comm engine hleaves harrives hplain

/-- A plain token transfer, of which each shard reports another fee. -/
theorem documents_converge_of_token_transfer :
    let x : Indexer := ⟨default, false, {}⟩
    let transfer : TxPayload := { data := Utf8.encode "ESDTTransfer@54@01" }
    let pool := fun (fee : String) =>
      { transactions := .ofList [("01", ⟨transfer, some { fee }, 0⟩)] : Pool }
    let carrier := fun (shard : UInt32) (fee : String) =>
      { shard
        header := some { shard }
        miniBlocks := [⟨.transactions, 0, 1, [[1]]⟩]
        pool := some (pool fee) : Block }
    ∃ da db, x.WritesOnly (carrier 0 "7") "01" da ∧ x.WritesOnly (carrier 1 "9") "01" db ∧
      ∀ engine (stored : Stored), stored x.names.transactions "01" = none →
        db.write engine (da.write engine stored) = da.write engine (db.write engine stored) := by
  intro x transfer pool carrier
  have hcarries : ∀ shard fee, (carrier shard fee).Carries { shard } (pool fee)
      (⟨.transactions, 0, 1, [[1]]⟩, 0) ⟨transfer, some { fee }, 0⟩ 0 1 "01" := by
    intro shard fee
    exact
      { hasHeader := rfl
        hasPool := rfl
        shard := rfl
        listed := by simp [carrier]
        type := rfl
        sender := rfl
        receiver := rfl
        fresh := by simp
        executes := ⟨0, [1], rfl, by decide, rfl⟩
        found := by simp [pool, Dict.ofList]
        alone := by simp [carrier] }
  exact documents_converge x rfl (by decide) (hcarries 0 "7") rfl (hcarries 1 "9") rfl rfl

end Indexer

end ChainIndex
