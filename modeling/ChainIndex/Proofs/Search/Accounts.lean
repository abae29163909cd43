import ChainIndex.Proofs.Account
import ChainIndex.Proofs.Events.Items
import ChainIndex.Proofs.Indexer
import ChainIndex.Proofs.Json
import ChainIndex.Proofs.Search.Index

/-!
# The documents of accounts and holdings

Of each account that a block tells of, and of each holding, there is one document, under an
identifier of its own, and one snapshot goes with it (`Indexer.yields_accounts`). The identifier of
a holding that is an item is the one under which changes of the item are written.

What is told is a condition on the accounts of the block and on nothing that is read from them, so
that a reader who leaves out a holding is found out. The documents are then compared with the
records place by place, by a relation that spells out identifier and body: since a holding that is
told has a record, it has a document, and one of the right kind. Only the balance needs an argument
about the reader. A table keeps one record for a token that is listed several times, and the record
has to show the last of them, not the one under whose key it was first put in.
-/

namespace ChainIndex

/-! ### What a block tells of

An account needs a balance that can be read, while a token does not: an amount that is no number is
taken for nothing held, and so the holding is told of and deleted. -/

/-- A block tells of an account: its address and its balance can be read, and it has sent something,
or its balance has changed or is nothing. -/
def Network.TellsAccount (n : Network) (b : Block) (address : String) : Prop :=
  ∃ a ∈ b.accounts.values, a.address = address ∧
    (a.balance ∈ ["", "0"] ∨ a.balanceChanged = true ∨ a.isSender = true) ∧
    (∃ key, n.addresses.decode address = .ok key) ∧
    ∃ balance, readAmount a.balance = .ok balance

/-- A block tells of a holding: an account whose address can be read has a token of that name. -/
def Network.TellsHolding (n : Network) (b : Block) (name : HoldingName) : Prop :=
  ∃ a ∈ b.accounts.values, a.address = name.address ∧
    (∃ t ∈ a.tokens, t.identifier = name.collection ∧ t.nonce = name.nonce) ∧
    ∃ key, n.addresses.decode name.address = .ok key

/-- An event tells of a change of an item that somebody holds: of its caller, or of whoever is named
by its last topic. -/
def Network.TellsItemUpdate (n : Network) (b : Block) (name : HoldingName) : Prop :=
  name.nonce ≠ 0 ∧
    ∃ l ∈ b.logs, ∃ e ∈ l.log.events,
      name.collection = Utf8.lenient (e.topic 0) ∧ name.nonce = Bytes.toUInt64 (e.topic 1) ∧
      (name.address = n.addresses.encodeOrEmpty e.address ∨
        name.address = n.addresses.encodeOrEmpty (e.topic 3))

/-- The records of accounts, and their snapshots, that a block shows. -/
structure Network.ShowsAccounts (n : Network) (b : Block) (accounts : List AccountRecord)
    (history : List BalanceSnapshot) : Prop where
  ascending : (accounts.map (·.address)).Pairwise (· < ·)
  complete : ∀ address, address ∈ accounts.map (·.address) ↔ n.TellsAccount b address
  /-- The body of an account says whose it is. -/
  bodies : ∀ a ∈ accounts, Json.lookup "address" a.toJson.membersOf = some (.string a.address)
  snapshots : history.Perm (accounts.map (·.snapshot b.stamp))
  distinctHistory : (history.map (·.id)).Nodup

/-- The records of holdings, and their snapshots, that a block shows. -/
structure Network.ShowsHoldings (n : Network) (b : Block) (holdings : List AccountRecord)
    (history : List BalanceSnapshot) : Prop where
  distinct : (holdings.map (·.holdingName)).Nodup
  complete : ∀ name, name ∈ holdings.map (·.holdingName) ↔ n.TellsHolding b name
  /-- The balance is the amount that some account with the address shows for the token. -/
  balances : ∀ a ∈ holdings, ∃ account ∈ b.accounts.values, ∃ t, account.ShowsAs t t ∧
    a.holdingName = ⟨account.address, t.identifier, t.nonce⟩ ∧ a.balance = Digits.ofInt t.amount
  distinctIds : (holdings.map (·.holdingName.id)).Nodup
  items : ∀ a ∈ holdings, a.tokenNonce ≠ 0 →
    a.holdingName.id = a.address ++ "-" ++ tokenIdentifier a.collection a.tokenNonce
  /-- The body of a holding says whose it is, and of which collection. -/
  bodies : ∀ a ∈ holdings, Json.lookup "address" a.toJson.membersOf = some (.string a.address) ∧
    Json.lookup "token" a.toJson.membersOf = Json.textMember? a.collection
  snapshots : history.Perm (holdings.map (·.snapshot b.stamp))
  /-- Holdings of a collection without a name are not told apart in the history. -/
  distinctHistory : ((history.filter (·.collection ≠ "")).map (·.id)).Nodup

/-- What is written for a holding, under the identifier that its name makes: nothing is left of it
if it is empty, and its body is stored otherwise. -/
inductive AccountRecord.Writes (index : String) (a : AccountRecord) : Document → Prop
  | deleted (empty : a.balance ∈ ["", "0"]) : a.Writes index (.delete index a.holdingName.id)
  | stored (held : a.balance ∉ ["", "0"]) : a.Writes index (.put index a.holdingName.id a.toJson)

namespace AccountRecord

/-- Every holding has one document, which is a deletion or holds its body. -/
theorem writes_holdingDocument (index : String) (a : AccountRecord) :
    a.Writes index (a.holdingDocument index) := by
  obtain ⟨hsome, h⟩ | ⟨hnone, h⟩ := a.holdingDocument_cases index <;> rw [h]
  · exact .stored (isSomeBalance_iff.mp hsome)
  · refine .deleted (Decidable.not_not.mp fun hheld => ?_)
    rw [isSomeBalance_iff.mpr hheld] at hnone
    exact nomatch hnone

/-- Holdings and their documents stand in the same places. -/
theorem forall₂_writes (index : String) (holdings : List AccountRecord) :
    List.Forall₂ (Writes index) holdings (holdings.map (·.holdingDocument index)) := by
  rw [List.forall₂_map_right_iff, List.forall₂_same]
  exact fun a _ => a.writes_holdingDocument index

theorem lookup_address_toJson (a : AccountRecord) :
    Json.lookup "address" a.toJson.membersOf = some (.string a.address) := by
  simp [toJson, Json.membersOf, Json.lookup]

/-- The texts that tell which token a body is about, and what is known of it. -/
theorem lookup_toJson (a : AccountRecord) :
    Json.lookup "token" a.toJson.membersOf = Json.textMember? a.collection ∧
      Json.lookup "type" a.toJson.membersOf = Json.textMember? a.type ∧
      Json.lookup "currentOwner" a.toJson.membersOf = Json.textMember? a.currentOwner := by
  unfold toJson Json.membersOf
  cases a.metadata <;>
    simp (disch := decide) [Json.lookup_append, Json.lookup_textField, Json.lookup_bytesField,
      Json.lookup_switchField, Json.lookup_countField, Json.lookup_amountField, Json.lookup]

end AccountRecord

/-- Every holding that a block tells of has a record, and so a document. -/
theorem Network.ShowsHoldings.exists_document {n : Network} {b : Block}
    {holdings : List AccountRecord} {history : List BalanceSnapshot}
    (h : n.ShowsHoldings b holdings history) {index : String} {docs : List Document}
    (hdocs : List.Forall₂ (AccountRecord.Writes index) holdings docs) {name : HoldingName}
    (hname : n.TellsHolding b name) :
    ∃ a ∈ holdings, a.holdingName = name ∧ ∃ d ∈ docs, a.Writes index d := by
  obtain ⟨a, ha, haname⟩ := List.mem_map.mp ((h.complete name).mpr hname)
  exact ⟨a, ha, haname, exists_mem_of_forall₂ hdocs ha⟩

/-- Where only one account is told of, its balances are those of its holdings. -/
theorem Network.ShowsHoldings.balance_eq {n : Network} {b : Block} {holdings : List AccountRecord}
    {history : List BalanceSnapshot} (h : n.ShowsHoldings b holdings history)
    {account : AlteredAccount} (hvalues : b.accounts.values = [account]) {t : Holding}
    (ht : account.ShowsAs t t) {a : AccountRecord} (ha : a ∈ holdings)
    (hname : a.holdingName = ⟨account.address, t.identifier, t.nonce⟩) :
    a.balance = Digits.ofInt t.amount := by
  obtain ⟨account', haccount, t', ht', hname', hbalance⟩ := h.balances a ha
  rw [hvalues, List.mem_singleton] at haccount
  subst haccount
  obtain ⟨-, hidentifier, hnonce⟩ := HoldingName.mk.inj (hname'.symm.trans hname)
  rw [hbalance, ht.eq ht' hidentifier hnonce]

/-! ### The records of a block

Each table is compared with the accounts through the entries that it is collected from. The entries
are sorted by address, which is of no matter for what is in the tables. -/

theorem mem_orderedAccounts {accounts : Dict AlteredAccount} {a : AlteredAccount} :
    a ∈ orderedAccounts accounts ↔ a ∈ accounts.values :=
  (List.mergeSort_perm _ _).mem_iff

theorem AlteredAccount.isUntouched_eq_false_iff {a : AlteredAccount} :
    a.isUntouched = false ↔
      a.balance ∈ ["", "0"] ∨ a.balanceChanged = true ∨ a.isSender = true := by
  unfold isUntouched
  cases a.balanceChanged <;> cases a.isSender <;> simp [imp_iff_not_or]

namespace Network

variable {n : Network} {b : Block}

theorem mem_keys_accounts_digest (importMode : Bool) {address : String} :
    address ∈ (n.digest importMode b).accounts.keys ↔ n.TellsAccount b address := by
  show address ∈ (n.accountReader.accountTable b.stamp (accountEntries b.accounts)).keys ↔ _
  rw [AccountReader.mem_keys_accountTable]
  simp only [accountEntries, List.mem_map, List.mem_filter, mem_orderedAccounts, TellsAccount,
    Bool.not_eq_eq_eq_not, Bool.not_true, AlteredAccount.isUntouched_eq_false_iff]
  constructor
  · rintro ⟨-, ⟨a, ⟨ha, htouched⟩, rfl⟩, haddress, hkey, hbalance⟩
    exact ⟨a, ha, haddress, htouched, hkey, hbalance⟩
  · rintro ⟨a, ha, haddress, htouched, hkey, hbalance⟩
    exact ⟨_, ⟨a, ⟨ha, htouched⟩, rfl⟩, haddress, hkey, hbalance⟩

theorem mem_holdingNames_digest (importMode : Bool) {name : HoldingName} :
    name ∈ (n.digest importMode b).holdings.values.map (·.holdingName) ↔
      n.TellsHolding b name := by
  show name ∈ (n.accountReader.holdingTable b.stamp (holdingEntries b.accounts)).values.map
    (·.holdingName) ↔ _
  rw [AccountReader.mem_holdingNames_iff]
  simp only [holdingEntries, List.mem_flatMap, mem_orderedAccounts,
    AlteredAccount.holdingEntries, List.mem_map, TellsHolding]
  constructor
  · rintro ⟨⟨-, ⟨a, ha, t, ht, rfl⟩, rfl⟩, hkey⟩
    exact ⟨a, ha, rfl, ⟨t, ht, rfl, rfl⟩, hkey⟩
  · rintro ⟨a, ha, haddress, ⟨t, ht, hcollection, hnonce⟩, hkey⟩
    refine ⟨⟨_, ⟨a, ha, t, ht, rfl⟩, ?_⟩, hkey⟩
    rw [HoldingEntry.name, haddress, hcollection, hnonce]

end Network

namespace Network

variable (n : Network) (importMode : Bool) (b : Block)

theorem showsAccounts_digest :
    n.ShowsAccounts b (n.digest importMode b).accounts.values
      (n.digest importMode b).accountHistory.values where
  ascending := by
    have haddress := n.accountReader.map_address_values b.stamp (accountEntries b.accounts)
    exact haddress ▸ Table.pairwise_keys _
  complete address := by
    rw [← mem_keys_accounts_digest (n := n) (b := b) importMode]
    have haddress := n.accountReader.map_address_values b.stamp (accountEntries b.accounts)
    exact iff_of_eq (congrArg (address ∈ ·) haddress)
  bodies a _ := a.lookup_address_toJson
  snapshots := n.accountReader.perm_accountHistory b.stamp (accountEntries b.accounts)
  distinctHistory := n.accountReader.nodup_id_accountHistory b.stamp (accountEntries b.accounts)

/-- The balance of a holding is what some account shows for its token. -/
theorem exists_showsAs_of_mem_holdings {a : AccountRecord}
    (ha : a ∈ (n.digest importMode b).holdings.values) :
    ∃ account ∈ b.accounts.values, ∃ t, account.ShowsAs t t ∧
      a.holdingName = ⟨account.address, t.identifier, t.nonce⟩ ∧
      a.balance = Digits.ofInt t.amount := by
  obtain ⟨e, he, hrecord⟩ := AccountReader.exists_entry_of_mem_values ha
  obtain ⟨account, haccount, he⟩ := List.mem_flatMap.mp he
  rw [AlteredAccount.holdingEntries_eq_map] at he
  obtain ⟨t, ht, rfl⟩ := List.mem_map.mp he
  -- the record is made for one entry of the token, and its balance is that of the last one
  obtain ⟨shown, hshown⟩ := AlteredAccount.exists_showsAs ht
  obtain ⟨⟨haddress, hcollection, hnonce, hbalance⟩, -⟩ := AccountReader.of_holdingRecord? hrecord
  rw [hshown.balance_state] at hbalance
  refine ⟨account, mem_orderedAccounts.mp haccount, shown, hshown.self, ?_, hbalance⟩
  obtain ⟨-, -, -, ⟨hidentifier, hnonce'⟩, -⟩ := hshown
  rw [AccountRecord.holdingName, haddress, hcollection, hnonce, hidentifier, hnonce']
  rfl

theorem showsHoldings_digest (held : Registry) :
    n.ShowsHoldings b ((n.digest importMode b).holdings.map fun _ a => a.typedBy held).values
      (n.digest importMode b).holdingHistory.values := by
  -- a registry writes types and owners, which are no part of a name
  have hnames : (((n.digest importMode b).holdings.values.map (·.typedBy held)).map
      (·.holdingName)) = (n.digest importMode b).holdings.values.map (·.holdingName) := by
    simp only [List.map_map, Function.comp_def, AccountRecord.holdingName_typedBy]
  rw [Table.values_map]
  constructor
  case distinct =>
    rw [hnames]
    exact n.accountReader.nodup_holdingName b.stamp (holdingEntries b.accounts)
  case complete =>
    intro name
    rw [hnames]
    exact mem_holdingNames_digest importMode
  case balances =>
    intro a ha
    obtain ⟨a', ha', rfl⟩ := List.mem_map.mp ha
    rw [AccountRecord.holdingName_typedBy, AccountRecord.balance_typedBy]
    exact n.exists_showsAs_of_mem_holdings importMode b ha'
  case distinctIds =>
    have hids := n.accountReader.nodup_holdingId b.stamp (holdingEntries b.accounts)
    rw [List.map_map]
    simp only [Function.comp_def, AccountRecord.holdingName_typedBy]
    exact hids
  case items => exact fun a _ hnonce => a.holdingId_eq_of_item hnonce
  case bodies => exact fun a _ => ⟨a.lookup_address_toJson, a.lookup_toJson.1⟩
  case snapshots =>
    simp only [List.map_map, Function.comp_def, AccountRecord.snapshot_typedBy]
    exact n.accountReader.perm_holdingHistory b.stamp (holdingEntries b.accounts)
  case distinctHistory =>
    exact n.accountReader.nodup_id_holdingHistory b.stamp (holdingEntries b.accounts)

theorem address_identifier_itemUpdateOf (caller : String) (nonce : UInt64) (e : Event) :
    ((n.itemUpdateOf caller nonce e).address = caller ∨
        (n.itemUpdateOf caller nonce e).address = n.addresses.encodeOrEmpty (e.topic 3)) ∧
      (n.itemUpdateOf caller nonce e).identifier =
        tokenIdentifier (Utf8.lenient (e.topic 0)) nonce := by
  unfold itemUpdateOf
  split
  · exact ⟨.inl rfl, rfl⟩
  · split
    · exact ⟨.inl rfl, rfl⟩
    · exact ⟨.inr rfl, rfl⟩

/-- A change of an item is about a holding that some event names. -/
theorem tellsItemUpdate_digest :
    ∀ u ∈ (n.digest importMode b).findings.itemUpdates, u.change.isOfHolder = true →
      ∃ name, n.TellsItemUpdate b name ∧ name.address = u.address ∧
        u.address ++ "-" ++ u.identifier = name.id := by
  intro u hu hholder
  have hread : u ∈ (n.readLogs b.stamp b.logs (n.settle b importMode).transactions
      (n.settle b importMode).results).findings.itemUpdates := hu
  rw [itemUpdates_readLogs] at hread
  obtain ⟨_, hevent, htold⟩ := List.mem_filterMap.mp hread
  obtain ⟨l, hl, e, he, rfl⟩ := mem_loggedEvents.mp hevent
  dsimp only at htold
  unfold itemUpdate? at htold
  split at htold
  · -- a pause is about no holder
    unfold pauseOf? at htold
    split at htold
    · cases htold
      cases hholder
    · cases htold
  · split at htold
    · cases htold
    · next hheld =>
        obtain rfl := Option.some.inj htold
        have hnonce : Bytes.toUInt64 (e.topic 1) ≠ 0 := fun hzero => hheld (by simp [hzero])
        obtain ⟨haddress, hidentifier⟩ := n.address_identifier_itemUpdateOf
          (n.addresses.encodeOrEmpty e.address) (Bytes.toUInt64 (e.topic 1)) e
        set name : HoldingName := ⟨(n.itemUpdateOf (n.addresses.encodeOrEmpty e.address)
          (Bytes.toUInt64 (e.topic 1)) e).address, Utf8.lenient (e.topic 0),
          Bytes.toUInt64 (e.topic 1)⟩
        refine ⟨name, ⟨hnonce, l, hl, e, he, rfl, rfl, haddress⟩, rfl, ?_⟩
        rw [HoldingName.id_eq_of_item (h := name) hnonce, hidentifier]

end Network

/-! ### The documents

An index may have the name of another one. So the documents about accounts are found by where they
stand, and what is said of the others is which names they can have. -/

/-- The names of the indices that are not about accounts and holdings. -/
def IndexNames.toListWithoutAccounts (names : IndexNames) : List String :=
  [names.transactions, names.results, names.receipts, names.tokens, names.esdts, names.deploys,
    names.delegators, names.logs, names.events, names.tags, names.operations]

namespace Digested

variable {d : Digested} {tokens : ResolvedTokens} {names : IndexNames}

/-- The documents about accounts and holdings stand together, and all others are for other
indices. -/
theorem documents_eq_accounts (d : Digested) (tokens : ResolvedTokens) (names : IndexNames) :
    ∃ before after,
      d.documents tokens names =
        before ++ d.accountAndHoldingDocuments tokens.held names ++ after ∧
      ∀ e ∈ before ++ after, e.index ∈ names.toListWithoutAccounts := by
  have hmiddle : d.accountAndHoldingDocuments tokens.held names =
      (((d.sections tokens names).drop 10).take 5).flatMap Prod.snd := by
    simp only [sections, accountAndHoldingDocuments, List.take_succ_cons, List.take_zero,
      List.drop_succ_cons, List.drop_zero, List.flatMap_cons, List.flatMap_nil,
      List.append_assoc, List.append_nil]
  rw [hmiddle]
  refine d.documents_eq_around tokens names 10 5 ?_
  simp [sections, IndexNames.toListWithoutAccounts]

end Digested

/-- The documents about accounts and holdings are one for each account and for each holding that
the block tells of, with one snapshot each, and one for each change of an item that is held. Of a
holding of which nothing is left the document is a deletion. -/
theorem Indexer.yields_accounts (x : Indexer) (store : TokenStore) (b : Block) :
    x.Yields store b fun docs =>
      ∃ before after accounts accountHistory holdings holdingHistory,
        ∃ holdingDocs : List Document, ∃ updates : List ItemUpdate,
          docs = before ++
              ((accounts.map fun a => .put x.names.accounts a.address a.toJson) ++
                (accountHistory.map fun s => .put x.names.accountsHistory s.id s.toJson) ++
                holdingDocs ++
                (updates.map fun u => .script x.names.tokenAccounts
                  (u.address ++ "-" ++ u.identifier) (.changeItem u.change)) ++
                (holdingHistory.map fun s =>
                  .put x.names.tokenAccountsHistory s.id s.toJson)) ++
              after ∧
            (∀ d ∈ before ++ after, d.index ∈ x.names.toListWithoutAccounts) ∧
            List.Forall₂ (AccountRecord.Writes x.names.tokenAccounts) holdings holdingDocs ∧
            x.network.ShowsAccounts b accounts accountHistory ∧
            x.network.ShowsHoldings b holdings holdingHistory ∧
            ∀ u ∈ updates, ∃ name, x.network.TellsItemUpdate b name ∧ name.address = u.address ∧
              u.address ++ "-" ++ u.identifier = name.id := by
  refine yields_of_documents fun tokens _ => ?_
  obtain ⟨before, after, hdocs, hothers⟩ :=
    (x.network.digest x.importMode b).documents_eq_accounts tokens x.names
  refine ⟨before, after, _, _, _, _, _, _, hdocs, hothers,
    AccountRecord.forall₂_writes x.names.tokenAccounts _,
    x.network.showsAccounts_digest x.importMode b,
    x.network.showsHoldings_digest x.importMode b tokens.held, ?_⟩
  intro u hu
  obtain ⟨hu, hholder⟩ := List.mem_filter.mp hu
  exact x.network.tellsItemUpdate_digest x.importMode b u hu hholder

/-- An account has something of an item and nothing of a token, and lists the item twice. The item
is stored with the later balance, and the token is deleted. -/
theorem Indexer.yields_accounts_of_empty_holding :
    let holder : AlteredAccount :=
      { address := "00"
        tokens :=
          [{ identifier := "A", nonce := 1, balance := "3" },
            { identifier := "A", nonce := 1, balance := "5" },
            { identifier := "B", balance := "0" }] }
    let b : Block := { accounts := .ofList [("00", holder)] }
    ∃ docs, ((⟨default, false, {}⟩ : Indexer).process .empty b).result = .ok docs ∧
      .delete "accountsesdt" "00-B-00" ∈ docs ∧
      ∃ a : AccountRecord, a.holdingName = ⟨"00", "A", 1⟩ ∧ a.balance = "5" ∧
        .put "accountsesdt" "00-A-01" a.toJson ∈ docs := by
  intro holder b
  obtain ⟨docs, hdocs⟩ := exists_process_result ⟨default, false, {}⟩ (fun _ _ => ⟨[], rfl⟩) b
  have hvalues : b.accounts.values = [holder] := rfl
  obtain ⟨before, after, accounts, accountHistory, holdings, holdingHistory, holdingDocs, updates,
    hall, -, hwrites, -, hshows, -⟩ := (yields_accounts _ .empty b).of_result hdocs
  have hin : ∀ d ∈ holdingDocs, d ∈ docs := by
    intro d hd
    rw [hall]
    simp [hd]
  have haddress : ∃ key, (default : Network).addresses.decode "00" = .ok key := ⟨[0], by decide⟩
  have htold : ∀ t ∈ holder.tokens,
      (default : Network).TellsHolding b ⟨"00", t.identifier, t.nonce⟩ := fun t ht =>
    ⟨holder, hvalues ▸ List.mem_singleton_self _, rfl, ⟨t, ht, rfl, rfl⟩, haddress⟩
  refine ⟨docs, hdocs, ?_, ?_⟩
  · obtain ⟨a, ha, hname, d, hd, hwritten⟩ := hshows.exists_document hwrites
      (htold _ (.tail _ (.tail _ (.head _))))
    have hempty : a.balance = "0" := by
      rw [hshows.balance_eq hvalues
        ⟨[{ identifier := "A", nonce := 1, balance := "3" },
            { identifier := "A", nonce := 1, balance := "5" }], [], rfl, ⟨rfl, rfl⟩, nofun⟩
        ha hname]
      decide
    have hid : a.holdingName.id = "00-B-00" := by
      rw [hname]
      decide +kernel
    refine hin _ ?_
    cases hwritten with
    | deleted _ => exact hid ▸ hd
    | stored held => exact absurd (by simp [hempty]) held
  · obtain ⟨a, ha, hname, d, hd, hwritten⟩ := hshows.exists_document hwrites
      (htold _ (.tail _ (.head _)))
    have hfive : a.balance = "5" := by
      -- the second entry of the item is the last one
      rw [hshows.balance_eq hvalues
        ⟨[{ identifier := "A", nonce := 1, balance := "3" }],
          [{ identifier := "B", balance := "0" }], rfl, ⟨rfl, rfl⟩, by simp⟩ ha hname]
      decide
    have hid : a.holdingName.id = "00-A-01" := by
      rw [hname]
      decide +kernel
    refine ⟨a, hname, hfive, hin _ ?_⟩
    cases hwritten with
    | deleted empty => exact absurd (hfive ▸ empty) (by decide)
    | stored _ => exact hid ▸ hd

end ChainIndex
