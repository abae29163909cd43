import ChainIndex.Proofs.Events.Items
import ChainIndex.Proofs.Indexer
import ChainIndex.Proofs.Token.Describe
import ChainIndex.Proofs.Token.Resolve

/-!
# The order in which a block lists its entries

The records of a pool and the accounts of a block are listed by key, and a node may list them in any
order. What a block is settled to, what its accounts are shown to hold and what the store is asked
does not depend on that order. One thing does: the metadata of a created item that does not tell its
own, where accounts that have the item tell different ones (`Indexer.process_of_sameEntries`).

Nearly everything is looked up by key, or sorted first, and then the order cannot be seen: what is
left of a run is equal on both sides, and no relation between two runs is needed. Metadata is looked
for in the accounts as they are listed, and the first match counts. So the two runs are equal but
for the registry of created items, and these two registries are equal but for metadata, which is
carried through the store to the documents (`Registry.SameButMetadata`). The condition under which
they are equal altogether is exact, since a block with a disagreement can be listed with either
account first.
-/

namespace ChainIndex

/-! ### Blocks with their entries in another order -/

/-- Two pools have the same entries, in whatever order, and the same logs. -/
structure Pool.SameEntries (p p' : Pool) : Prop where
  transactions : p.transactions.SameEntries p'.transactions
  results : p.results.SameEntries p'.results
  rewards : p.rewards.SameEntries p'.rewards
  receipts : p.receipts.SameEntries p'.receipts
  invalid : p.invalid.SameEntries p'.invalid
  logs : p'.logs = p.logs

theorem Pool.SameEntries.refl (p : Pool) : p.SameEntries p :=
  ⟨.refl _, .refl _, .refl _, .refl _, .refl _, rfl⟩

/-- Two blocks differ at most in the order of the entries of their pools and of their accounts. -/
structure Block.SameEntries (b b' : Block) : Prop where
  shard : b'.shard = b.shard
  header : b'.header = b.header
  miniBlocks : b'.miniBlocks = b.miniBlocks
  pool : Option.Rel Pool.SameEntries b.pool b'.pool
  accounts : b.accounts.SameEntries b'.accounts

/-- Every account stands under its own address. -/
def Block.KeyedByAddress (b : Block) : Prop :=
  ∀ e ∈ b.accounts.entries, e.1 = e.2.address

namespace Block.SameEntries

variable {b b' : Block}

theorem of_accounts {accounts : Dict AlteredAccount} (h : b.accounts.SameEntries accounts) :
    b.SameEntries { b with accounts } := by
  refine ⟨rfl, rfl, rfl, ?_, h⟩
  show Option.Rel Pool.SameEntries b.pool b.pool
  cases b.pool with
  | none => exact .none
  | some p => exact .some (.refl p)

theorem stamp_eq (h : b.SameEntries b') : b'.stamp = b.stamp := by
  rw [stamp, stamp, timestamp, timestamp, timestampMs, timestampMs, h.shard, h.header]

theorem logs_eq (h : b.SameEntries b') : b'.logs = b.logs := by
  have hpool := h.pool
  unfold Block.logs
  generalize b.pool = pool at hpool
  generalize b'.pool = pool' at hpool
  cases hpool with
  | none => rfl
  | some hpool => exact hpool.logs

end Block.SameEntries

/-! ### What does not depend on the order

A table is the same for all orders if no key comes twice, and in a dictionary none does. The
accounts are no table: they are sorted by address, and the sort keeps the order of those with one
address. So every account has to stand under its own. -/

namespace Network

variable {n : Network} {importMode : Bool} {h : Header} {p p' : Pool} {b b' : Block}

theorem resultsOf_of_sameEntries (hsame : p.SameEntries p') (miniBlocks : List MiniBlock) :
    n.resultsOf h p' miniBlocks = n.resultsOf h p miniBlocks := by
  unfold resultsOf
  rw [hsame.results.get?_eq, hsame.results.ofList_entries_eq]

theorem transactionTable_of_sameEntries (hsame : p.SameEntries p') (miniBlocks : List MiniBlock) :
    n.transactionTable h p' importMode miniBlocks =
      n.transactionTable h p importMode miniBlocks := by
  have hlisted : n.transactionsOf h p' importMode = n.transactionsOf h p importMode := by
    funext m
    unfold transactionsOf
    rw [hsame.transactions.get?_eq, hsame.invalid.get?_eq]
  rw [transactionTable, hlisted, transactionTable]

theorem rewardTable_of_sameEntries (hsame : p.SameEntries p') (miniBlocks : List MiniBlock) :
    n.rewardTable h p' importMode miniBlocks = n.rewardTable h p importMode miniBlocks := by
  have hlisted : n.rewardsOf h p' importMode = n.rewardsOf h p importMode := by
    funext m
    unfold rewardsOf
    rw [hsame.rewards.get?_eq]
  rw [rewardTable, hlisted, rewardTable]

theorem receiptsOf_of_sameEntries (hsame : p.SameEntries p') :
    n.receiptsOf h p' = n.receiptsOf h p := by
  rw [receiptsOf, hsame.receipts.ofList_entries_eq, receiptsOf]

/-- The records of a block are found by key, or taken in the order of keys. -/
theorem settle_of_sameEntries (hsame : b.SameEntries b') :
    n.settle b' importMode = n.settle b importMode := by
  have hpool := hsame.pool
  unfold settle
  rw [hsame.header, hsame.miniBlocks]
  generalize b.pool = pool at hpool
  generalize b'.pool = pool' at hpool
  cases hpool with
  | none => rfl
  | some hpool =>
      cases b.header with
      | none => rfl
      | some h =>
          simp only [settledTable, resultsOf_of_sameEntries hpool,
            transactionTable_of_sameEntries hpool, rewardTable_of_sameEntries hpool,
            receiptsOf_of_sameEntries hpool]

end Network

theorem pairwise_orderedAccounts (accounts : Dict AlteredAccount) :
    (orderedAccounts accounts).Pairwise fun a a' => a.address ≤ a'.address := by
  have h : (orderedAccounts accounts).Pairwise fun a a' => decide (a.address ≤ a'.address) :=
    List.pairwise_mergeSort (fun a a' a'' => by simpa using String.le_trans)
      (fun a a' => by simpa using String.le_total a.address a'.address) accounts.values
  exact h.imp fun h => of_decide_eq_true h

/-- Accounts with addresses of their own have one order. -/
theorem orderedAccounts_eq_of_perm {accounts : Dict AlteredAccount} {as : List AlteredAccount}
    (hperm : as.Perm accounts.values) (hsorted : as.Pairwise fun a a' => a.address ≤ a'.address)
    (hdistinct : (as.map (·.address)).Nodup) : orderedAccounts accounts = as := by
  have hsame : (orderedAccounts accounts).Perm as :=
    (List.mergeSort_perm _ _).trans hperm.symm
  refine hsame.eq_of_pairwise ?_ (pairwise_orderedAccounts accounts) hsorted
  intro a a' ha ha' hle hge
  exact List.inj_on_of_nodup_map hdistinct (hsame.mem_iff.mp ha) ha'
    (String.le_antisymm hle hge)

/-- Accounts that stand under their own addresses have addresses of their own. -/
theorem Block.KeyedByAddress.nodup_address {b : Block} (hkeyed : b.KeyedByAddress) :
    (b.accounts.values.map (·.address)).Nodup := by
  have hkeys : b.accounts.values.map (·.address) = b.accounts.keys := by
    rw [Dict.values, List.map_map]
    exact List.map_congr_left fun e he => (hkeyed e he).symm
  rw [hkeys]
  exact b.accounts.distinct

/-- Accounts that stand under their own addresses are put in one order. -/
theorem orderedAccounts_of_sameEntries {b b' : Block} (hkeyed : b.KeyedByAddress)
    (hsame : b.SameEntries b') : orderedAccounts b'.accounts = orderedAccounts b.accounts := by
  have hperm : (orderedAccounts b.accounts).Perm b.accounts.values := List.mergeSort_perm _ _
  refine orderedAccounts_eq_of_perm (hperm.trans hsame.accounts.perm_values)
    (pairwise_orderedAccounts b.accounts) ?_
  exact (hperm.map _).nodup_iff.mpr hkeyed.nodup_address

namespace Network

variable (n : Network) (importMode : Bool) (b : Block)

/-- The items that the logs of a block create, without the metadata that accounts tell. -/
def toldItems : Registry :=
  ((loggedEvents b.logs).flatMap fun e => n.creationsOf b.stamp e.event).foldl Registry.add .empty

/-- The items that a block creates, with the metadata that its accounts tell. -/
def createdItems : Registry :=
  (n.toldItems b).describe b.accounts.values

/-- The accounts that have an item which the block creates without metadata tell the same. -/
def HoldersAgree : Prop :=
  ∀ t ∈ (n.toldItems b).entries, t.AsksForMetadata → t.AgreedOn b.accounts.values

theorem created_digest : (n.digest importMode b).findings.created = n.createdItems b := by
  rw [createdItems, toldItems, ← n.created_readLogs b.stamp b.logs
    (n.settle b importMode).transactions (n.settle b importMode).results]
  rfl

variable {n importMode b} {b' : Block}

theorem createdItems_of_sameEntries (hsame : b.SameEntries b') :
    n.createdItems b' = (n.toldItems b).describe b'.accounts.values := by
  rw [createdItems, toldItems, hsame.logs_eq, hsame.stamp_eq, toldItems]

/-- All that the order can change is what is told of the created items. -/
theorem digest_of_sameEntries (hkeyed : b.KeyedByAddress) (hsame : b.SameEntries b') :
    n.digest importMode b' =
      { n.digest importMode b with
        findings :=
          { (n.digest importMode b).findings with created := n.createdItems b' } } := by
  have hordered := orderedAccounts_of_sameEntries hkeyed hsame
  have haccounts : accountEntries b'.accounts = accountEntries b.accounts := by
    rw [accountEntries, hordered, accountEntries]
  have hholdings : holdingEntries b'.accounts = holdingEntries b.accounts := by
    rw [holdingEntries, hordered, holdingEntries]
  rw [← n.created_digest importMode b']
  simp only [digest, hsame.stamp_eq, hsame.logs_eq, settle_of_sameEntries hsame, haccounts,
    hholdings]

end Network

/-! ### Registries that differ in metadata

The store is asked by collection, and its answers are matched by collection, neither of which has
anything to do with metadata. -/

/-- Two registries differ at most in metadata. -/
def Registry.SameButMetadata (r r' : Registry) : Prop :=
  r'.entries.map (·.undescribed) = r.entries.map (·.undescribed)

theorem Registry.sameButMetadata_describe (r : Registry)
    (accounts accounts' : List AlteredAccount) :
    (r.describe accounts).SameButMetadata (r.describe accounts') := by
  have hmap : ∀ accounts, (r.describe accounts).entries.map (·.undescribed) =
      r.entries.map (·.undescribed) := by
    intro accounts
    show (r.entries.map (TokenRecord.describedBy _)).map (·.undescribed) = _
    rw [List.map_map]
    exact List.map_congr_left fun t _ => t.undescribed_describedBy _
  unfold SameButMetadata
  rw [hmap, hmap]

theorem TokenRecord.undescribed_resolvedBy (answers : List StoredToken) (t : TokenRecord) :
    (answers.foldl (fun t s => t.resolvedBy s) t).undescribed =
      answers.foldl (fun t s => t.resolvedBy s) t.undescribed := by
  induction answers generalizing t with
  | nil => rfl
  | cons s rest ih =>
      have hone : (t.resolvedBy s).undescribed = t.undescribed.resolvedBy s := by
        unfold resolvedBy
        split
        · next hs =>
            rw [if_pos (by exact hs)]
            rfl
        · next hs => rw [if_neg (by exact hs)]
      rw [List.foldl_cons, List.foldl_cons, ih, hone]

namespace Registry.SameButMetadata

variable {r r' : Registry}

theorem collections_eq (h : r.SameButMetadata r') : r'.collections = r.collections := by
  have hcollections := congrArg (List.map (·.collection)) h
  rwa [List.map_map, List.map_map] at hcollections

theorem isEmpty_eq (h : r.SameButMetadata r') : r'.isEmpty = r.isEmpty := by
  have hlength := congrArg List.isEmpty h
  rwa [List.isEmpty_map, List.isEmpty_map] at hlength

theorem resolve (h : r.SameButMetadata r') (answers : List StoredToken) :
    (r.resolve answers).SameButMetadata (r'.resolve answers) := by
  have hmap : ∀ r : Registry, (r.resolve answers).entries.map (·.undescribed) =
      (r.entries.map (·.undescribed)).map
        fun t => answers.foldl (fun t s => t.resolvedBy s) t := by
    intro r
    rw [Registry.entries_resolve, List.map_map, List.map_map]
    exact List.map_congr_left fun t _ => t.undescribed_resolvedBy answers
  unfold SameButMetadata
  rw [hmap, hmap, h]

theorem shownItems (h : r.SameButMetadata r') :
    r'.shownItems.map (·.undescribed) = r.shownItems.map (·.undescribed) := by
  have hshown : ∀ r : Registry, r.shownItems.map (·.undescribed) =
      (r.entries.map (·.undescribed)).filter
        fun t => t.type != TokenType.semiFungibleAmount := by
    intro r
    rw [Registry.shownItems, List.filter_map]
    rfl
  rw [hshown, hshown, h]

/-- The store is asked the same, and what it answers goes to the same tokens. -/
theorem alike_resolve (h : r.SameButMetadata r') (store : TokenStore) (index : String) :
    Consultation.Alike SameButMetadata (store.resolve index r) (store.resolve index r') := by
  unfold TokenStore.resolve
  rw [h.isEmpty_eq, h.collections_eq]
  split
  · exact ⟨rfl, .ok h⟩
  · refine ⟨rfl, ?_⟩
    dsimp only
    cases store r.collections index with
    | error e => exact .error e
    | ok answers => exact .ok (h.resolve answers)

end Registry.SameButMetadata

/-! ### Runs on a block and on the same block in another order

Two runs are alike if they ask the same and get related results, so the relation is followed through
one question after another. -/

/-- Two lists of documents differ at most in the metadata of created items. -/
def SameButCreated (index : String) (docs docs' : List Document) : Prop :=
  ∃ before after, ∃ items items' : List TokenRecord,
    docs = before ++ items.map (fun t => .put index t.identifier t.toJson) ++ after ∧
      docs' = before ++ items'.map (fun t => .put index t.identifier t.toJson) ++ after ∧
      items'.map (·.undescribed) = items.map (·.undescribed)

theorem Digested.documents_sameButCreated (d : Digested) (created : Registry)
    {tokens tokens' : ResolvedTokens} (hcreated : tokens.created.SameButMetadata tokens'.created)
    (hheld : tokens'.held = tokens.held) (hremoved : tokens'.removed = tokens.removed)
    (names : IndexNames) :
    SameButCreated names.tokens (d.documents tokens names)
      ({ d with findings := { d.findings with created } }.documents tokens' names) := by
  refine ⟨d.recordDocuments names,
    d.logAndResultDocuments names ++ d.accountAndHoldingDocuments tokens.held names ++
      d.findingDocuments tokens.removed names,
    tokens.created.shownItems, tokens'.created.shownItems, ?_, ?_, hcreated.shownItems⟩
  · simp only [documents, createdDocuments, List.append_assoc]
  · rw [← hheld, ← hremoved]
    simp only [documents, createdDocuments, List.append_assoc]
    rfl

namespace Indexer

variable {x : Indexer} {b b' : Block}

/-- In another order the store is asked the same, and what comes of it differs at most in the
metadata of created items. -/
theorem alike_process (store : TokenStore) (hkeyed : b.KeyedByAddress) (hsame : b.SameEntries b') :
    Consultation.Alike (SameButCreated x.names.tokens) (x.process store b)
      (x.process store b') := by
  have hcreated : (x.network.digest x.importMode b).findings.created.SameButMetadata
      (x.network.createdItems b') := by
    rw [Network.created_digest, Network.createdItems_of_sameEntries hsame]
    exact Registry.sameButMetadata_describe _ _ _
  unfold process
  rw [Network.digest_of_sameEntries hkeyed hsame]
  set d := x.network.digest x.importMode b
  refine Consultation.Alike.bind (R := fun tokens tokens' : ResolvedTokens =>
    tokens.created.SameButMetadata tokens'.created ∧ tokens'.held = tokens.held ∧
      tokens'.removed = tokens.removed) ?_ ?_
  · unfold Digested.resolve
    refine (hcreated.alike_resolve store x.names.tokens).bind fun created created' hcreated => ?_
    refine (Consultation.Alike.refl _).bind fun held held' hheld => ?_
    refine (Consultation.Alike.refl _).bind fun removed removed' hremoved => ?_
    exact .pure ⟨hcreated, hheld.symm, hremoved.symm⟩
  · rintro tokens tokens' ⟨hcreated, hheld, hremoved⟩
    exact .pure (d.documents_sameButCreated _ hcreated hheld hremoved x.names)

/-- A run does not depend on the order in which a block lists its entries, but for the metadata of
created items that do not tell their own. For these the accounts count that have the item: the
metadata is the same in every order if and only if they agree on it, and then the whole run is. -/
theorem process_of_sameEntries (x : Indexer) (store : TokenStore) {b : Block}
    (hkeyed : b.KeyedByAddress) :
    (∀ b', b.SameEntries b' → Consultation.Alike (SameButCreated x.names.tokens)
        (x.process store b) (x.process store b')) ∧
      ((∀ b', b.SameEntries b' → x.network.createdItems b' = x.network.createdItems b) ↔
        x.network.HoldersAgree b) ∧
      (x.network.HoldersAgree b →
        ∀ b', b.SameEntries b' → x.process store b' = x.process store b) := by
  have hcreated : (∀ b', b.SameEntries b' →
      x.network.createdItems b' = x.network.createdItems b) ↔ x.network.HoldersAgree b := by
    rw [Network.HoldersAgree, ← Registry.describe_eq_iff_agreedOn]
    constructor
    · intro h accounts hsame
      have hblock : b.SameEntries { b with accounts } := .of_accounts hsame
      have heq := h _ hblock
      rwa [Network.createdItems_of_sameEntries hblock] at heq
    · intro h b' hsame
      rw [Network.createdItems_of_sameEntries hsame, h _ hsame.accounts, Network.createdItems]
  refine ⟨fun b' hsame => alike_process store hkeyed hsame, hcreated, ?_⟩
  intro hagree b' hsame
  have hdigest : x.network.digest x.importMode b' = x.network.digest x.importMode b := by
    rw [Network.digest_of_sameEntries hkeyed hsame, hcreated.mpr hagree b' hsame,
      ← x.network.created_digest x.importMode b]
  rw [process, hdigest, process]

/-- Of two accounts that have a created item, one tells its metadata: the order counts. -/
theorem process_of_sameEntries_of_two_holders :
    let silent : AlteredAccount :=
      { address := "00", tokens := [{ identifier := "A", nonce := 1 }] }
    let telling : AlteredAccount :=
      { address := "01", tokens := [{ identifier := "A", nonce := 1, metadata := some {} }] }
    let creation : Event :=
      { address := [0], identifier := "ESDTNFTCreate", topics := [[65], [1], [1], [123, 125]] }
    let b : Block :=
      { pool := some { logs := [⟨"aa", ⟨[0], [creation]⟩⟩] }
        accounts := .ofList [("00", silent), ("01", telling)] }
    ∃ b', b.SameEntries b' ∧
      (default : Network).createdItems b' ≠ (default : Network).createdItems b := by
  intro silent telling creation b
  have hkeyed : b.KeyedByAddress := by
    intro e he
    have hentries : b.accounts.entries = [("00", silent), ("01", telling)] := rfl
    rw [hentries, List.mem_cons, List.mem_singleton] at he
    rcases he with rfl | rfl <;> rfl
  obtain ⟨-, hiff, -⟩ := process_of_sameEntries ⟨default, false, {}⟩ .empty hkeyed
  by_contra hnone
  have hagree : (default : Network).HoldersAgree b := hiff.mp fun b' hsame => by
    by_contra hne
    exact hnone ⟨b', hsame, hne⟩
  have htold : ((default : Network).toldItems b).entries = [Network.itemOf b.stamp creation] := by
    decide +kernel
  have hagreed := hagree (Network.itemOf b.stamp creation)
    (htold ▸ List.mem_singleton_self _) ⟨rfl, by decide⟩
  have hsilent : silent ∈ b.accounts.values := .head _
  have htelling : telling ∈ b.accounts.values := .tail _ (.head _)
  have heq := hagreed silent hsilent telling htelling none (some (.ofRaw {})) (by decide)
    (by decide)
  cases heq

end Indexer

end ChainIndex
