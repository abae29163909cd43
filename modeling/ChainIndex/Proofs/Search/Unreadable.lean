import ChainIndex.Proofs.Search.Accounts
import ChainIndex.Proofs.Token.Registry

/-!
# Balances that cannot be read

A balance that is no integer counts as zero. So a holding whose entries cannot be read is deleted,
and its snapshot says that nothing is left (`Indexer.yields_deletion_of_unreadable`). That is all
the entries do: the block without them, which leaves the holding as it is stored, gives the same
documents otherwise.

The two blocks are compared piece by piece. Accounts, tags and the registry of held tokens do not
notice the missing entries, since nothing is held of what cannot be read. The table of holdings
does: it is that of the smaller block with one record put in, under a key that is free there
(`AccountReader.holdingTable_eq_insert`), and its history alike. A new key in a table is one new
place among its values, so the documents differ in two places and the rest is equal
(`Digested.documents_insert_holding`). One more thing looks at the entries, whether they can be read
or not: a created item takes its metadata from the first entry with its name.
-/

namespace ChainIndex

/-! ### A block without the entries of one holding -/

/-- Whether a token of an account goes by the collection and the nonce of a holding. -/
def HoldingName.isOf (name : HoldingName) (t : Holding) : Bool :=
  t.identifier == name.collection && t.nonce == name.nonce

/-- An account without its entries of a holding. -/
def AlteredAccount.without (name : HoldingName) (a : AlteredAccount) : AlteredAccount :=
  if a.address = name.address then { a with tokens := a.tokens.filter fun t => !name.isOf t } else a

/-- A block without the entries of a holding. -/
def Block.without (name : HoldingName) (b : Block) : Block :=
  { b with accounts := b.accounts.map fun _ a => a.without name }

/-- A block has entries of a holding with a property only. -/
def Block.ForEntries (b : Block) (name : HoldingName) (P : Holding → Prop) : Prop :=
  ∀ a ∈ b.accounts.values, a.address = name.address →
    ∀ t ∈ a.tokens, t.identifier = name.collection → t.nonce = name.nonce → P t

/-- No balance of a holding can be read. -/
def Block.Unreadable (b : Block) (name : HoldingName) : Prop :=
  b.ForEntries name fun t => ∃ e, readAmount t.balance = .error e

namespace AlteredAccount

variable {name : HoldingName}

/-- Without some entries an account is the same but for its tokens. -/
theorem without_frame (name : HoldingName) (a : AlteredAccount) :
    ∃ tokens, a.without name = { a with tokens } := by
  unfold without
  split
  · exact ⟨_, rfl⟩
  · exact ⟨a.tokens, rfl⟩

@[simp] theorem address_without (a : AlteredAccount) : (a.without name).address = a.address := by
  obtain ⟨_, heq⟩ := a.without_frame name
  rw [heq]

end AlteredAccount

/-- An entry whose account is without the entries of a holding. -/
def HoldingEntry.without (name : HoldingName) (e : HoldingEntry) : HoldingEntry :=
  { e with account := e.account.without name }

theorem Block.values_accounts_without (name : HoldingName) (b : Block) :
    (b.without name).accounts.values = b.accounts.values.map (·.without name) := by
  simp [without, Dict.values, Dict.map]

theorem orderedAccounts_without (name : HoldingName) (b : Block) :
    orderedAccounts (b.without name).accounts =
      (orderedAccounts b.accounts).map (·.without name) := by
  rw [orderedAccounts, orderedAccounts, Block.values_accounts_without]
  refine (List.map_mergeSort fun a _ a' _ => ?_).symm
  rw [AlteredAccount.address_without, AlteredAccount.address_without]

/-- The entries of a holding are those that an account without them has not. -/
theorem holdingEntries_without_account (name : HoldingName) (a : AlteredAccount) :
    (a.without name).holdingEntries =
      (a.holdingEntries.filter fun e => e.name != name).map (·.without name) := by
  unfold AlteredAccount.holdingEntries
  rw [List.filter_map, List.map_map]
  by_cases haddress : a.address = name.address
  · have hfilter : a.tokens.filter (fun t => (⟨a.address, t.identifier, t.nonce⟩ : HoldingName) !=
        name) = a.tokens.filter fun t => !name.isOf t := by
      refine List.filter_congr fun t _ => ?_
      obtain ⟨address, collection, nonce⟩ := name
      rw [Bool.eq_iff_iff]
      simp [HoldingName.isOf, haddress, imp_iff_not_or]
    simp only [Function.comp_def, HoldingEntry.name, hfilter, HoldingEntry.without,
      AlteredAccount.without, if_pos haddress, AlteredAccount.isSender]
  · have hself : a.without name = a := by rw [AlteredAccount.without, if_neg haddress]
    rw [hself, List.filter_eq_self.mpr]
    · refine List.map_congr_left fun t _ => ?_
      simp only [Function.comp_apply, HoldingEntry.without, hself]
    · intro t _
      refine bne_iff_ne.mpr fun heq => haddress ?_
      exact (congrArg HoldingName.address heq :)

theorem holdingEntries_without (name : HoldingName) (b : Block) :
    holdingEntries (b.without name).accounts =
      ((holdingEntries b.accounts).filter fun e => e.name != name).map (·.without name) := by
  rw [holdingEntries, holdingEntries, orderedAccounts_without, List.filter_flatMap,
    List.map_flatMap, List.flatMap_map]
  simp only [holdingEntries_without_account]

/-- What an account shows of itself does not depend on its tokens. -/
theorem accountEntries_without (name : HoldingName) (b : Block) :
    accountEntries (b.without name).accounts =
      (accountEntries b.accounts).map fun e => { e with account := e.account.without name } := by
  have hframe : ∀ a : AlteredAccount, (a.without name).isUntouched = a.isUntouched ∧
      (a.without name).isSender = a.isSender := by
    intro a
    obtain ⟨_, heq⟩ := a.without_frame name
    rw [heq]
    exact ⟨rfl, rfl⟩
  rw [accountEntries, accountEntries, orderedAccounts_without, List.filter_map, List.map_map,
    List.map_map]
  simp only [Function.comp_def, (hframe _).1, (hframe _).2]

/-! ### What the entries make

An account has its tokens in one list, in which the last entry of a name counts. Leaving out the
entries of one name changes nothing for the others. -/

namespace HoldingEntry

variable {name : HoldingName} {e : HoldingEntry}

/-- An entry of another holding shows the same whether or not its account has the entries. -/
theorem state_without (h : e.name ≠ name) : (e.without name).state = e.state := by
  have hholding : (e.without name).holding? = e.holding? := by
    unfold holding? without AlteredAccount.without
    dsimp only
    split
    · next haddress =>
        rw [List.filter_filter]
        congr 1
        refine List.filter_congr fun t _ => ?_
        -- no token goes by both names
        rw [Bool.eq_iff_iff]
        simp only [Bool.and_eq_true, beq_iff_eq, HoldingName.isOf, Bool.not_eq_eq_eq_not,
          Bool.not_true, Bool.and_eq_false_imp, beq_eq_false_iff_ne, and_iff_left_iff_imp]
        rintro ⟨hidentifier, hnonce⟩ hidentifier' hnonce'
        apply h
        rw [HoldingEntry.name, haddress, ← hidentifier, ← hnonce, hidentifier', hnonce']
    · rfl
  unfold state
  rw [hholding]
  rfl

/-- An entry whose balance cannot be read shows nothing. -/
theorem state_of_unreadable
    (h : ∀ t ∈ e.account.tokens, t.identifier = e.collection → t.nonce = e.nonce →
      ∃ error, readAmount t.balance = .error error) : e.state = {} := by
  unfold state
  split
  · rfl
  · cases hholding : e.holding? with
    | none => rfl
    | some t =>
        obtain ⟨ht, hname⟩ := List.mem_filter.mp (List.mem_of_getLast? hholding)
        simp only [Bool.and_eq_true, beq_iff_eq] at hname
        obtain ⟨error, herror⟩ := h t ht hname.1 hname.2
        dsimp only
        rw [herror]

end HoldingEntry

theorem Block.Unreadable.state_eq {b : Block} {name : HoldingName} (h : b.Unreadable name)
    {e : HoldingEntry} (he : e ∈ holdingEntries b.accounts) (hname : e.name = name) :
    e.state = {} := by
  subst hname
  obtain ⟨a, ha, he⟩ := List.mem_flatMap.mp he
  obtain ⟨t, ht, rfl⟩ := List.mem_map.mp he
  exact HoldingEntry.state_of_unreadable (h a (mem_orderedAccounts.mp ha) rfl)

namespace AccountReader

variable (r : AccountReader) (stamp : BlockStamp) {b : Block} {name : HoldingName}

theorem holdingRecord?_without {e : HoldingEntry} (h : e.name ≠ name) :
    r.holdingRecord? stamp (e.without name) = r.holdingRecord? stamp e := by
  unfold holdingRecord?
  rw [HoldingEntry.state_without h]
  simp only [HoldingEntry.without, AlteredAccount.address_without]

/-- The records of a block without some entries are those of the other entries. -/
theorem filterMap_holdingRecord?_without (b : Block) (name : HoldingName) :
    (holdingEntries (b.without name).accounts).filterMap (r.holdingRecord? stamp) =
      ((holdingEntries b.accounts).filter fun e => e.name != name).filterMap
        (r.holdingRecord? stamp) := by
  rw [holdingEntries_without, List.filterMap_map]
  refine List.filterMap_congr fun e he => ?_
  exact r.holdingRecord?_without stamp (bne_iff_ne.mp (List.mem_filter.mp he).2)

theorem accountTable_without (b : Block) (name : HoldingName) :
    r.accountTable stamp (accountEntries (b.without name).accounts) =
      r.accountTable stamp (accountEntries b.accounts) := by
  rw [accountTable, accountEntries_without, List.filterMap_map]
  have hrecord : ∀ e : AccountEntry, r.accountRecord? stamp
      { e with account := e.account.without name } = r.accountRecord? stamp e := by
    intro e
    obtain ⟨_, heq⟩ := e.account.without_frame name
    rw [heq]
    rfl
  simp only [Function.comp_def, hrecord]
  rfl

theorem createdTags_without {e : HoldingEntry} (h : e.name ≠ name) :
    r.createdTags (e.without name) = r.createdTags e := by
  unfold createdTags
  rw [HoldingEntry.state_without h]
  simp only [HoldingEntry.without, AlteredAccount.address_without]
  rfl

/-- Nothing is held of what cannot be read. -/
theorem heldTokens_without (hunreadable : b.Unreadable name) :
    r.heldTokens stamp (holdingEntries (b.without name).accounts) =
      r.heldTokens stamp (holdingEntries b.accounts) := by
  have hrecords : ((holdingEntries (b.without name).accounts).filterMap
        (r.holdingRecord? stamp)).filter (fun a => isSomeBalance a.balance) =
      ((holdingEntries b.accounts).filterMap (r.holdingRecord? stamp)).filter
        fun a => isSomeBalance a.balance := by
    rw [filterMap_holdingRecord?_without, List.filter_filterMap, List.filter_filterMap,
      List.filterMap_filter]
    refine List.filterMap_congr fun e he => ?_
    split
    · rfl
    · next hname =>
        have hname : e.name = name := by simpa using hname
        cases ha : r.holdingRecord? stamp e with
        | none => rfl
        | some a =>
            obtain ⟨⟨-, -, -, hbalance⟩, -⟩ := of_holdingRecord? ha
            rw [hunreadable.state_eq he hname] at hbalance
            rw [Option.filter_some, hbalance]
            rfl
  rw [heldTokens, hrecords, heldTokens]

/-- What cannot be read has no tags. -/
theorem tagCounts_without (hunreadable : b.Unreadable name) :
    r.tagCounts (holdingEntries (b.without name).accounts) =
      r.tagCounts (holdingEntries b.accounts) := by
  rw [tagCounts, holdingEntries_without, List.foldl_map, List.foldl_filter, tagCounts]
  refine List.foldl_ext _ _ _ fun counts e he => ?_
  split
  · next hname => rw [r.createdTags_without (bne_iff_ne.mp hname)]
  · next hname =>
      have hname : e.name = name := by simpa using hname
      have htags : r.createdTags e = [] := by
        unfold createdTags
        rw [hunreadable.state_eq he hname]
        split
        · rfl
        · split <;> rfl
      rw [htags]
      rfl

/-- A record stands under the key of a holding if its entry is one of that holding. -/
theorem holdingKey_eq_iff {key : Bytes} (hkey : r.addresses.decode name.address = .ok key)
    {e : HoldingEntry} {a : AccountRecord} (ha : r.holdingRecord? stamp e = some a) :
    holdingKey a.address a.collection a.tokenNonce =
        holdingKey name.address name.collection name.nonce ↔ e.name = name := by
  obtain ⟨⟨haddress, hcollection, hnonce, -⟩, key', hkey'⟩ := of_holdingRecord? ha
  have hname : e.name = a.holdingName := by
    rw [HoldingEntry.name, AccountRecord.holdingName, haddress, hcollection, hnonce]
  have hlen : a.address.toList.length = name.address.toList.length := by
    rw [AddressFormat.length_of_decode hkey', AddressFormat.length_of_decode hkey]
  rw [hname]
  constructor
  · intro hkeys
    obtain ⟨haddress, hcollection, hnonce⟩ := eq_of_holdingKey_eq hlen hkeys
    rw [AccountRecord.holdingName, haddress, hcollection, hnonce]
  · rintro rfl
    rfl

/-- The records of holdings by what a holding is collected by, one after another. -/
def keyedHoldings (entries : List HoldingEntry) : List (String × AccountRecord) :=
  (entries.filterMap (r.holdingRecord? stamp)).map fun a =>
    (holdingKey a.address a.collection a.tokenNonce, a)

/-- Without its entries nothing is collected under the key of a holding, and all else is. -/
theorem keyedHoldings_without (b : Block) {key : Bytes}
    (hkey : r.addresses.decode name.address = .ok key) :
    r.keyedHoldings stamp (holdingEntries (b.without name).accounts) =
      (r.keyedHoldings stamp (holdingEntries b.accounts)).filter fun e =>
        e.1 ≠ holdingKey name.address name.collection name.nonce := by
  rw [keyedHoldings, filterMap_holdingRecord?_without, keyedHoldings, List.filter_map,
    List.filter_filterMap, List.filterMap_filter]
  congr 1
  refine List.filterMap_congr fun e he => ?_
  cases ha : r.holdingRecord? stamp e with
  | none => simp
  | some a =>
      have hiff := r.holdingKey_eq_iff stamp hkey ha
      rw [Option.filter_some]
      by_cases hname : e.name = name
      · simp [hname, hiff.mpr hname]
      · simp [hname, mt hiff.mp hname]

/-- A holding that cannot be read is empty, and all other holdings are those of the block without
its entries. -/
theorem holdingTable_eq_insert (hunreadable : b.Unreadable name)
    (hentry : ∃ e ∈ holdingEntries b.accounts, e.name = name) {key : Bytes}
    (hkey : r.addresses.decode name.address = .ok key) :
    let k := holdingKey name.address name.collection name.nonce
    k ∉ (r.holdingTable stamp (holdingEntries (b.without name).accounts)).keys ∧
      ∃ a, a.holdingName = name ∧ a.balance = "0" ∧
        r.holdingTable stamp (holdingEntries b.accounts) =
          (r.holdingTable stamp (holdingEntries (b.without name).accounts)).insert k a := by
  intro k
  have hothers : r.holdingTable stamp (holdingEntries (b.without name).accounts) =
      .ofList ((r.keyedHoldings stamp (holdingEntries b.accounts)).filter fun e => e.1 ≠ k) :=
    congrArg Table.ofList (r.keyedHoldings_without stamp b hkey)
  obtain ⟨a, ha⟩ : ∃ a, lastValue? k (r.keyedHoldings stamp (holdingEntries b.accounts)) =
      some a := by
    obtain ⟨e, he, rfl⟩ := hentry
    obtain ⟨a, ha⟩ := r.exists_holdingRecord? stamp hkey
    rw [← Option.isSome_iff_exists, isSome_lastValue?_iff]
    exact List.mem_map.mpr ⟨_, List.mem_map_of_mem (List.mem_filterMap.mpr ⟨e, he, ha⟩),
      (r.holdingKey_eq_iff stamp hkey ha).mpr rfl⟩
  -- the last record under the key is of an entry that cannot be read
  obtain ⟨a', ha', hkeyed⟩ := List.mem_map.mp (mem_of_lastValue? ha)
  obtain ⟨hkeys, rfl⟩ := Prod.mk.inj hkeyed
  obtain ⟨e, he, hrecord⟩ := List.mem_filterMap.mp ha'
  have hname : e.name = name := (r.holdingKey_eq_iff stamp hkey hrecord).mp hkeys
  obtain ⟨⟨haddress, hcollection, hnonce, hbalance⟩, -⟩ := of_holdingRecord? hrecord
  rw [hunreadable.state_eq he hname] at hbalance
  refine ⟨?_, a', ?_, hbalance, ?_⟩
  · rw [hothers, Table.mem_keys_ofList]
    intro hk
    obtain ⟨e, he, heq⟩ := List.mem_map.mp hk
    exact of_decide_eq_true (List.mem_filter.mp he).2 heq
  · rw [← hname, AccountRecord.holdingName, HoldingEntry.name, haddress, hcollection, hnonce]
  · rw [hothers]
    exact Table.ofList_eq_insert ha

end AccountReader

/-! ### What is left of a block

Records and logs are read before any account is, so of all that a block is digested to only what
comes of its accounts has to be compared. -/

theorem AlteredAccount.find?_tokens_without {name : HoldingName} {p : Holding → Bool}
    (hp : ∀ t, p t = true → name.isOf t = false) (a : AlteredAccount) :
    (a.without name).tokens.find? p = a.tokens.find? p := by
  unfold without
  split
  · rw [List.find?_filter]
    congr 1
    funext t
    cases ht : p t with
    | false => simp
    | true => simp [hp t ht]
  · rfl

/-- An item that is not the one held gets its metadata from other entries. -/
theorem TokenRecord.describedBy_without {t : TokenRecord} {b : Block} {name : HoldingName}
    (ht : ¬ (t.collection = name.collection ∧ t.nonce = name.nonce)) :
    t.describedBy ((b.without name).accounts.values.flatMap (·.tokens)) =
      t.describedBy (b.accounts.values.flatMap (·.tokens)) := by
  have hother : ∀ h : Holding, (h.identifier == t.collection && h.nonce == t.nonce) = true →
      name.isOf h = false := by
    intro h hh
    rw [Bool.and_eq_true, beq_iff_eq, beq_iff_eq] at hh
    rw [Bool.eq_false_iff]
    intro hname
    rw [HoldingName.isOf, Bool.and_eq_true, beq_iff_eq, beq_iff_eq] at hname
    exact ht ⟨hh.1.symm.trans hname.1, hh.2.symm.trans hname.2⟩
  unfold describedBy
  rw [Block.values_accounts_without, List.flatMap_map, List.find?_flatMap, List.find?_flatMap]
  simp only [AlteredAccount.find?_tokens_without hother]

theorem Registry.eq_of_entries_eq {r r' : Registry} (h : r.entries = r'.entries) : r = r' := by
  cases r
  cases r'
  cases h
  rfl

/-- A block does not create the item of a holding. -/
def Digested.Spares (d : Digested) (name : HoldingName) : Prop :=
  ∀ t ∈ d.findings.created.entries, ¬ (t.collection = name.collection ∧ t.nonce = name.nonce)

namespace Network

variable {n : Network} {importMode : Bool} {b : Block} {name : HoldingName}

theorem created_without (hspares : (n.digest importMode b).Spares name) :
    (n.digest importMode (b.without name)).findings.created =
      (n.digest importMode b).findings.created := by
  apply Registry.eq_of_entries_eq
  refine List.map_congr_left fun t ht => TokenRecord.describedBy_without fun hname => ?_
  refine hspares _ (List.mem_map_of_mem ht) ?_
  obtain ⟨_, heq⟩ := t.describedBy_frame (b.accounts.values.flatMap (·.tokens))
  rw [heq]
  exact hname

/-- What a block tells of is what it tells without the entries that cannot be read, and one empty
holding. -/
theorem digest_of_unreadable (importMode : Bool) (hunreadable : b.Unreadable name)
    (htold : n.TellsHolding b name) :
    let d := n.digest importMode (b.without name)
    let k := holdingKey name.address name.collection name.nonce
    k ∉ d.holdings.keys ∧
      ∃ a, a.holdingName = name ∧ a.balance = "0" ∧
        n.digest importMode b =
          { d with
            findings := { d.findings with created := (n.digest importMode b).findings.created }
            holdings := d.holdings.insert k a
            holdingHistory := d.holdingHistory.insert k (a.snapshot b.stamp) } := by
  intro d k
  obtain ⟨account, haccount, haddress, ⟨t, ht, hcollection, hnonce⟩, key, hkey⟩ := htold
  have hentry : ∃ e ∈ holdingEntries b.accounts, e.name = name := by
    refine ⟨_, List.mem_flatMap.mpr ⟨account, mem_orderedAccounts.mpr haccount,
      List.mem_map.mpr ⟨t, ht, rfl⟩⟩, ?_⟩
    rw [HoldingEntry.name, haddress, hcollection, hnonce]
  obtain ⟨hfree, a, hname, hbalance, hholdings⟩ :=
    n.accountReader.holdingTable_eq_insert b.stamp hunreadable hentry hkey
  refine ⟨hfree, a, hname, hbalance, ?_⟩
  have hhistory : snapshotsOf b.stamp
      (n.accountReader.holdingTable b.stamp (holdingEntries b.accounts)) =
      d.holdingHistory.insert k (a.snapshot b.stamp) := by
    have hothers : d.holdingHistory = d.holdings.map fun _ a => a.snapshot b.stamp :=
      n.accountReader.holdingHistory_eq_map b.stamp _
    rw [n.accountReader.holdingHistory_eq_map, hholdings, Table.map_insert, hothers]
    rfl
  -- the records, the logs and the accounts of a block do not depend on its holdings
  have haccounts := n.accountReader.accountTable_without b.stamp b name
  have hheld := n.accountReader.heldTokens_without b.stamp hunreadable
  have htags := n.accountReader.tagCounts_without hunreadable
  show Digested.mk _ _ _ _ _ _ _ _ _ _ _ _ _ = Digested.mk _ _ _ _ _ _ _ _ _ _ _ _ _
  rw [Digested.mk.injEq]
  exact ⟨rfl, rfl, rfl, rfl, rfl, rfl, rfl, haccounts.symm,
    congrArg (snapshotsOf b.stamp) haccounts.symm, hholdings, hhistory, hheld.symm, htags.symm⟩

end Network

/-! ### The documents -/

/-- A holding of nothing is deleted, whatever its type is. -/
theorem AccountRecord.holdingDocument_typedBy_of_nothing {index : String} (a : AccountRecord)
    (r : Registry) (h : a.balance = "0") :
    (a.typedBy r).holdingDocument index = .delete index a.holdingName.id := by
  obtain ⟨_, _, heq⟩ := a.typedBy_frame r
  rw [heq, holdingDocument, if_neg (by rw [h]; decide)]
  rfl

/-- One more holding with its snapshot makes two more documents. -/
theorem Digested.documents_insert_holding {d : Digested} {k : String} (a : AccountRecord)
    (s : BalanceSnapshot) (hfree : k ∉ d.holdings.keys) (hhistory : k ∉ d.holdingHistory.keys)
    (tokens : ResolvedTokens) (names : IndexNames) :
    ∃ front middle back,
      d.documents tokens names = front ++ (middle ++ back) ∧
        { d with
          holdings := d.holdings.insert k a
          holdingHistory := d.holdingHistory.insert k s }.documents tokens names =
          front ++ (a.typedBy tokens.held).holdingDocument names.tokenAccounts ::
            (middle ++ .put names.tokenAccountsHistory s.id s.toJson :: back) := by
  have hfree' : k ∉ (d.holdings.map fun _ a => a.typedBy tokens.held).keys := by
    rwa [Table.keys_map]
  obtain ⟨front, back, hvalues, hinsert⟩ :=
    Table.exists_values_insert (a.typedBy tokens.held) hfree'
  obtain ⟨front', back', hvalues', hinsert'⟩ := Table.exists_values_insert s hhistory
  have hsnapshots : snapshotDocuments names.tokenAccountsHistory d.holdingHistory =
      front'.map (fun s => .put names.tokenAccountsHistory s.id s.toJson) ++
        back'.map fun s => .put names.tokenAccountsHistory s.id s.toJson := by
    rw [snapshotDocuments, hvalues', List.map_append]
  have hsnapshots' : snapshotDocuments names.tokenAccountsHistory (d.holdingHistory.insert k s) =
      front'.map (fun s => .put names.tokenAccountsHistory s.id s.toJson) ++
        .put names.tokenAccountsHistory s.id s.toJson ::
          back'.map fun s => .put names.tokenAccountsHistory s.id s.toJson := by
    rw [snapshotDocuments, hinsert', List.map_append, List.map_cons]
  refine ⟨d.recordDocuments names ++ createdDocuments names.tokens tokens.created ++
      d.logAndResultDocuments names ++ accountDocuments names.accounts d.accounts ++
      snapshotDocuments names.accountsHistory d.accountHistory ++
      front.map (·.holdingDocument names.tokenAccounts),
    back.map (·.holdingDocument names.tokenAccounts) ++
      heldItemDocuments names.tokenAccounts d.findings.itemUpdates ++
      front'.map (fun s => .put names.tokenAccountsHistory s.id s.toJson),
    back'.map (fun s => .put names.tokenAccountsHistory s.id s.toJson) ++
      d.findingDocuments tokens.removed names, ?_, ?_⟩
  · simp only [documents, accountAndHoldingDocuments, holdingDocuments, hvalues, hsnapshots,
      List.map_append, List.append_assoc]
  · simp only [documents, recordDocuments, logAndResultDocuments, findingDocuments,
      accountAndHoldingDocuments, holdingDocuments, Table.map_insert, hinsert, hsnapshots',
      List.map_append, List.map_cons, List.append_assoc, List.cons_append]

/-- A holding that cannot be read is deleted, with a snapshot that says that nothing is left. The
block without its entries gives all other documents and no more, but where it creates the item:
there the entries may tell of its metadata. -/
theorem Indexer.yields_deletion_of_unreadable (x : Indexer) (store : TokenStore) {b : Block}
    {name : HoldingName} (hunreadable : b.Unreadable name)
    (htold : x.network.TellsHolding b name) :
    x.Yields store b fun docs =>
      ∃ front middle back, ∃ s : BalanceSnapshot,
        docs = front ++ .delete x.names.tokenAccounts name.id ::
            (middle ++ .put x.names.tokenAccountsHistory s.id s.toJson :: back) ∧
          (s.address, s.collection, s.tokenNonce) = (name.address, name.collection, name.nonce) ∧
          s.balance = "0" ∧
          ((x.network.digest x.importMode b).Spares name →
            (x.process store (b.without name)).result = .ok (front ++ (middle ++ back))) := by
  refine yields_of_documents fun tokens htokens => ?_
  obtain ⟨hfree, a, hname, hbalance, hdigest⟩ :=
    Network.digest_of_unreadable x.importMode hunreadable htold
  set d := x.network.digest x.importMode (b.without name)
  set d' : Digested := { d with
    findings := { d.findings with
      created := (x.network.digest x.importMode b).findings.created } } with hd'
  have hhistory : holdingKey name.address name.collection name.nonce ∉ d.holdingHistory.keys := by
    have hothers : d.holdingHistory = d.holdings.map fun _ a => a.snapshot b.stamp :=
      x.network.accountReader.holdingHistory_eq_map b.stamp _
    rwa [hothers, Table.keys_map]
  obtain ⟨front, middle, back, hdocs, hdocs'⟩ :=
    d'.documents_insert_holding a (a.snapshot b.stamp) hfree hhistory tokens x.names
  rw [a.holdingDocument_typedBy_of_nothing tokens.held hbalance, hname] at hdocs'
  refine ⟨front, middle, back, a.snapshot b.stamp,
    (congrArg (·.documents tokens x.names) hdigest).trans hdocs', ?_, hbalance, fun hspares => ?_⟩
  · rw [← hname]
    rfl
  · have hsame : d' = d := by rw [hd', ← Network.created_without hspares]
    have hresolve : (x.network.digest x.importMode b).resolve store x.names.tokens =
        d'.resolve store x.names.tokens :=
      congrArg (·.resolve store x.names.tokens) hdigest
    refine process_result_eq_ok_iff.mpr ⟨tokens, ?_, ?_⟩
    · rw [← htokens, hresolve, hsame]
    · rw [← hdocs, hsame]

/-- An account whose only token has a balance that is no number loses the token. -/
theorem Indexer.yields_deletion_of_unreadable_token :
    let holder : AlteredAccount :=
      { address := "00", tokens := [{ identifier := "A", nonce := 1, balance := "x" }] }
    let b : Block := { accounts := .ofList [("00", holder)] }
    ∃ docs, ((⟨default, false, {}⟩ : Indexer).process .empty b).result = .ok docs ∧
      .delete "accountsesdt" "00-A-01" ∈ docs := by
  intro holder b
  have hvalues : b.accounts.values = [holder] := rfl
  have hunreadable : b.Unreadable ⟨"00", "A", 1⟩ := by
    intro a ha _ t ht _ _
    rw [hvalues, List.mem_singleton] at ha
    subst ha
    rw [List.mem_singleton] at ht
    subst ht
    exact ⟨_, rfl⟩
  have htold : (default : Network).TellsHolding b ⟨"00", "A", 1⟩ :=
    ⟨holder, hvalues ▸ List.mem_singleton_self holder, rfl,
      ⟨_, List.mem_singleton_self _, rfl, rfl⟩, _, rfl⟩
  obtain ⟨docs, hdocs⟩ := exists_process_result ⟨default, false, {}⟩ (fun _ _ => ⟨[], rfl⟩) b
  have hyields := yields_deletion_of_unreadable ⟨default, false, {}⟩ .empty hunreadable htold
  obtain ⟨front, middle, back, s, rfl, -⟩ := hyields.of_result hdocs
  refine ⟨_, hdocs, ?_⟩
  have hid : (⟨"00", "A", 1⟩ : HoldingName).id = "00-A-01" := by decide +kernel
  rw [hid]
  exact List.mem_append_right _ (List.mem_cons_self ..)

end ChainIndex
