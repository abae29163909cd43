import ChainIndex.Proofs.Growth
import ChainIndex.Proofs.Search.Accounts
import ChainIndex.Proofs.Search.Order
import ChainIndex.Proofs.Search.Types

/-!
# One account more

Accounts share a great deal: an order, the tables of their records and of what they hold, and the
registry of held tokens, out of which types and owners are written back to all holdings. Still, with
a store that knows nothing, one account more leaves the documents about all others as they are, each
in its place, and adds documents of its own or none (`Indexer.process_of_addsAccount`). The order is
kept because no two accounts have one address. The tables are kept because the records of an account
have keys that no other account has (`AccountReader.GainsRecords.values_ofList`). And a registry
that the store has told nothing writes nothing back.

Two runs are compared, and the relation between them is `GrowsBy`: the second list is the first one
with elements put in that have a property. It is carried from the accounts over their entries and
the tables to the documents, with one lemma for each way in which the code makes one list out of
another. Most of these keep it whatever the elements are. A table does not: a record that comes in
under a key that is taken replaces what is there, and the keys of holdings are texts without a mark
where the address ends. That all addresses have one length saves it, and for this reason readable
addresses are part of what is carried (`AccountReader.GainsRecords`).
-/

namespace ChainIndex

/-! ### Accounts and one more

Accounts come as a dictionary and are sorted before they are read, so where the account stands in
the dictionary is left open. -/

/-- One account more, in whatever order the accounts are listed. No two of them have one address. -/
structure AddsAccount (a : AlteredAccount) (accounts accounts' : Dict AlteredAccount) : Prop where
  values : accounts'.values.Perm (a :: accounts.values)
  distinct : (accounts'.values.map (·.address)).Nodup

/-- Where accounts stand under their addresses, an account with a new address is one more. -/
theorem addsAccount_insert {b : Block} {a : AlteredAccount} (hkeyed : b.KeyedByAddress)
    (hnew : a.address ∉ b.accounts.keys) :
    AddsAccount a b.accounts (b.accounts.insert a.address a) := by
  have hvalues : (b.accounts.insert a.address a).values.Perm (a :: b.accounts.values) := by
    have hentries : (b.accounts.insert a.address a).entries =
        b.accounts.entries ++ [(a.address, a)] := Dict.insertEntry_of_notMem hnew a
    rw [Dict.values, hentries, List.map_append]
    exact List.perm_append_singleton _ _
  refine ⟨hvalues, (hvalues.map _).nodup_iff.mpr (List.nodup_cons.mpr ⟨?_, hkeyed.nodup_address⟩)⟩
  intro hmem
  obtain ⟨a', ha', heq⟩ := List.mem_map.mp hmem
  obtain ⟨e, he, rfl⟩ := List.mem_map.mp ha'
  exact hnew (List.mem_map.mpr ⟨e, he, (hkeyed e he).trans heq⟩)

namespace AddsAccount

variable {a : AlteredAccount} {accounts accounts' : Dict AlteredAccount}

theorem address_ne (h : AddsAccount a accounts accounts') :
    ∀ a' ∈ accounts.values, a'.address ≠ a.address := by
  have hdistinct := (h.values.map (·.address)).nodup_iff.mp h.distinct
  intro a' ha' heq
  exact (List.nodup_cons.mp hdistinct).1 (List.mem_map.mpr ⟨a', ha', heq⟩)

/-- The account has one place in the order, and the others keep theirs. -/
theorem growsBy_orderedAccounts (h : AddsAccount a accounts accounts') :
    GrowsBy (· = a) (orderedAccounts accounts) (orderedAccounts accounts') := by
  have hsorted := pairwise_orderedAccounts accounts'
  have hperm : (orderedAccounts accounts').Perm (a :: accounts.values) :=
    (List.mergeSort_perm _ _).trans h.values
  -- what is left of the longer order is the only order that the others have
  obtain ⟨front, back, heq⟩ := List.append_of_mem (hperm.mem_iff.mpr List.mem_cons_self)
  rw [heq] at hsorted hperm ⊢
  have hothers : (front ++ back).Perm accounts.values :=
    (List.perm_middle.symm.trans hperm).cons_inv
  have hold : orderedAccounts accounts = front ++ back := by
    refine orderedAccounts_eq_of_perm hothers (hsorted.sublist ?_) ?_
    · exact (List.Sublist.refl front).append (List.sublist_cons_self a back)
    · have hdistinct := (h.values.map (·.address)).nodup_iff.mp h.distinct
      exact (hothers.map _).nodup_iff.mpr (List.nodup_cons.mp hdistinct).2
  rw [hold]
  exact (GrowsBy.refl front).append (.add rfl (.refl back))

theorem growsBy_accountEntries (h : AddsAccount a accounts accounts') :
    GrowsBy (·.account.address = a.address) (accountEntries accounts)
      (accountEntries accounts') :=
  (h.growsBy_orderedAccounts.filter _).map fun _ heq => congrArg AlteredAccount.address heq

theorem growsBy_holdingEntries (h : AddsAccount a accounts accounts') :
    GrowsBy (·.account.address = a.address) (holdingEntries accounts)
      (holdingEntries accounts') := by
  refine h.growsBy_orderedAccounts.flatMap fun a' heq e he => ?_
  obtain ⟨t, -, rfl⟩ := List.mem_map.mp he
  exact congrArg AlteredAccount.address heq

end AddsAccount

theorem account_mem_of_mem_accountEntries {accounts : Dict AlteredAccount} :
    ∀ e ∈ accountEntries accounts, e.account ∈ accounts.values := by
  intro e he
  obtain ⟨a, ha, rfl⟩ := List.mem_map.mp he
  exact mem_orderedAccounts.mp (List.mem_filter.mp ha).1

theorem account_mem_of_mem_holdingEntries {accounts : Dict AlteredAccount} :
    ∀ e ∈ holdingEntries accounts, e.account ∈ accounts.values := by
  intro e he
  obtain ⟨a, ha, he⟩ := List.mem_flatMap.mp he
  obtain ⟨t, -, rfl⟩ := List.mem_map.mp he
  exact mem_orderedAccounts.mp ha

/-! ### Records and those of one account more

Records are collected by their addresses, or by keys that are made of an address and more. The
lemmas ask of a key only that it tells the address, so there is one argument for all tables. -/

namespace AccountReader

variable {r : AccountReader} {stamp : BlockStamp} {address : String}

theorem address_of_accountRecord? {e : AccountEntry} {a : AccountRecord}
    (h : r.accountRecord? stamp e = some a) :
    a.address = e.account.address ∧ ∃ key, r.addresses.decode a.address = .ok key := by
  have haddress : a.address = e.account.address :=
    congrArg HoldingName.address (holdingName_of_accountRecord? h)
  obtain ⟨hkey, -⟩ := accountRecord?_eq_some_iff.mp ⟨a, h⟩
  exact ⟨haddress, haddress ▸ hkey⟩

/-- A key by which records are collected tells their addresses, among those of one length. -/
def TellsAddress (key : AccountRecord → String) : Prop :=
  ∀ a a' : AccountRecord, a.address.toList.length = a'.address.toList.length →
    key a = key a' → a.address = a'.address

theorem tellsAddress_address : TellsAddress (·.address) :=
  fun _ _ _ => id

theorem tellsAddress_holdingKey :
    TellsAddress fun a => holdingKey a.address a.collection a.tokenNonce :=
  fun _ _ hlen h => (eq_of_holdingKey_eq hlen h).1

/-- A record of the account with an address, which can be read. -/
structure IsOf (r : AccountReader) (address : String) (a : AccountRecord) : Prop where
  address_eq : a.address = address
  readable : ∃ key, r.addresses.decode address = .ok key

/-- Records with those of one account more. Before there were only records of other accounts. -/
structure GainsRecords (r : AccountReader) (address : String)
    (as as' : List AccountRecord) : Prop where
  grows : GrowsBy (r.IsOf address) as as'
  others : ∀ a ∈ as, a.address ≠ address ∧ ∃ key, r.addresses.decode a.address = .ok key

namespace GainsRecords

/-- Records of accounts, whatever they are read from. -/
theorem of_filterMap {ε : Type} (accountOf : ε → AlteredAccount) {es es' : List ε}
    {f : ε → Option AccountRecord}
    (hrecord : ∀ e a, f e = some a →
      a.address = (accountOf e).address ∧ ∃ key, r.addresses.decode a.address = .ok key)
    (hothers : ∀ e ∈ es, (accountOf e).address ≠ address)
    (hgrows : GrowsBy (fun e => (accountOf e).address = address) es es') :
    r.GainsRecords address (es.filterMap f) (es'.filterMap f) where
  grows := hgrows.filterMap fun e he a ha => by
    obtain ⟨haddress, hkey⟩ := hrecord e a ha
    have heq : a.address = address := haddress.trans he
    exact ⟨heq, heq ▸ hkey⟩
  others a ha := by
    obtain ⟨e, he, ha⟩ := List.mem_filterMap.mp ha
    obtain ⟨haddress, hkey⟩ := hrecord e a ha
    exact ⟨haddress ▸ hothers e he, hkey⟩

variable {as as' : List AccountRecord}

/-- The records of one account more have keys that no other account has. -/
theorem keys_ne (h : r.GainsRecords address as as') {key : AccountRecord → String}
    (hkey : TellsAddress key) : ∀ a ∈ as, ∀ a', r.IsOf address a' → key a' ≠ key a := by
  intro a ha a' ⟨haddress', hreadable'⟩ heq
  obtain ⟨hne, hreadable⟩ := h.others a ha
  obtain ⟨_, hbytes⟩ := hreadable
  obtain ⟨_, hbytes'⟩ := hreadable'
  refine hne ((hkey a' a ?_ heq).symm.trans haddress')
  rw [haddress', AddressFormat.length_of_decode hbytes', AddressFormat.length_of_decode hbytes]

/-- The records that a table shows are those of one account more, if those that it is collected
from are. -/
theorem values_ofList (h : r.GainsRecords address as as') {key : AccountRecord → String}
    (hkey : TellsAddress key) :
    r.GainsRecords address (Table.ofList (as.map fun a => (key a, a))).values
      (Table.ofList (as'.map fun a => (key a, a))).values where
  grows := h.grows.values_ofList (h.keys_ne hkey) fun _ => id
  others a ha := by
    have hvalue := Table.mem_of_mem_values_ofList ha
    rw [List.map_map] at hvalue
    obtain ⟨a, hmem, rfl⟩ := List.mem_map.mp hvalue
    exact h.others a hmem

/-- The history grows with the records. -/
theorem growsBy_snapshotsOf {records records' : Table AccountRecord}
    (h : r.GainsRecords address records.values records'.values) (stamp : BlockStamp) :
    GrowsBy (fun s => ∃ a, r.IsOf address a ∧ a.snapshot stamp = s)
      (snapshotsOf stamp records).values (snapshotsOf stamp records').values :=
  h.grows.values_ofList (h.keys_ne tellsAddress_holdingKey) fun a ha => ⟨a, ha, rfl⟩

end GainsRecords

end AccountReader

namespace Network

variable {n : Network} {b : Block} {a : AlteredAccount} {accounts : Dict AlteredAccount}

theorem gainsRecords_accounts (h : AddsAccount a b.accounts accounts) (importMode : Bool) :
    n.accountReader.GainsRecords a.address (n.digest importMode b).accounts.values
      (n.digest importMode { b with accounts }).accounts.values := by
  have hrecords : n.accountReader.GainsRecords a.address
      ((accountEntries b.accounts).filterMap (n.accountReader.accountRecord? b.stamp))
      ((accountEntries accounts).filterMap (n.accountReader.accountRecord? b.stamp)) :=
    .of_filterMap (·.account) (fun _ _ => AccountReader.address_of_accountRecord?)
      (fun e he => h.address_ne _ (account_mem_of_mem_accountEntries e he))
      h.growsBy_accountEntries
  exact hrecords.values_ofList AccountReader.tellsAddress_address

theorem gainsRecords_holdings (h : AddsAccount a b.accounts accounts) (importMode : Bool) :
    n.accountReader.GainsRecords a.address (n.digest importMode b).holdings.values
      (n.digest importMode { b with accounts }).holdings.values := by
  have hrecords : n.accountReader.GainsRecords a.address
      ((holdingEntries b.accounts).filterMap (n.accountReader.holdingRecord? b.stamp))
      ((holdingEntries accounts).filterMap (n.accountReader.holdingRecord? b.stamp)) := by
    refine .of_filterMap (·.account) (fun e record hrecord => ?_)
      (fun e he => h.address_ne _ (account_mem_of_mem_holdingEntries e he))
      h.growsBy_holdingEntries
    obtain ⟨⟨haddress, -⟩, hkey⟩ := AccountReader.of_holdingRecord? hrecord
    exact ⟨haddress, hkey⟩
  exact hrecords.values_ofList AccountReader.tellsAddress_holdingKey

end Network

/-! ### A store that knows nothing

The registry of held tokens is the one thing in which accounts meet: it is made of the holdings of
all, and what it tells of a collection goes to everybody who holds some. It gets types and owners
from the store alone. -/

theorem TokenStore.resolve_empty_result (index : String) (r : Registry) :
    (TokenStore.empty.resolve index r).result = .ok r := by
  unfold resolve
  split <;> rfl

/-- The tokens of a block as the block alone tells them. -/
def Digested.toldTokens (d : Digested) : ResolvedTokens :=
  ⟨d.findings.created, d.heldTokens, d.findings.removed⟩

/-- With a store that knows nothing the tokens stay as the block tells them. -/
theorem Indexer.process_empty_result (x : Indexer) (b : Block) :
    (x.process .empty b).result =
      .ok ((x.network.digest x.importMode b).documents
        (x.network.digest x.importMode b).toldTokens x.names) := by
  refine process_result_eq_ok_iff.mpr ⟨_, Digested.resolve_result_eq_ok_iff.mpr ?_, rfl⟩
  exact ⟨TokenStore.resolve_empty_result _ _, TokenStore.resolve_empty_result _ _,
    TokenStore.resolve_empty_result _ _⟩

/-- Of held tokens the accounts tell neither a type nor an owner. -/
theorem AccountReader.untyped_of_mem_heldTokens {r : AccountReader} {stamp : BlockStamp}
    {entries : List HoldingEntry} :
    ∀ t ∈ (r.heldTokens stamp entries).entries, t.type = "" ∧ t.currentOwner = "" := by
  intro t ht
  rw [heldTokens_eq_foldl] at ht
  rcases Registry.mem_or_mem_of_mem_foldl_add ht with ht | ht
  · exact nomatch ht
  · obtain ⟨e, -, ht⟩ := List.mem_flatMap.mp ht
    obtain ⟨-, -, rfl⟩ := mem_heldOf_iff.mp ht
    exact ⟨rfl, rfl⟩

/-- A registry without types and owners writes nothing on a holding that tells no owner. -/
theorem AccountRecord.typedBy_of_untyped {r : Registry}
    (hr : ∀ t ∈ r.entries, t.type = "" ∧ t.currentOwner = "") {a : AccountRecord}
    (ha : a.currentOwner = "") : a.typedBy r = a := by
  unfold typedBy
  cases hfind : r.ofCollection? a.collection with
  | none => rfl
  | some t =>
      obtain ⟨htype, howner⟩ := hr t (List.mem_of_find?_eq_some hfind)
      simp [htype, howner, ← ha]

/-- The registry of held tokens writes nothing on the holdings. -/
theorem Network.values_holdings_typedBy (n : Network) (importMode : Bool) (b : Block) :
    ((n.digest importMode b).holdings.map fun _ a =>
        a.typedBy (n.digest importMode b).heldTokens).values =
      (n.digest importMode b).holdings.values := by
  rw [Table.values_map]
  refine (List.map_congr_left fun a ha => ?_).trans (List.map_id _)
  obtain ⟨e, -, hrecord⟩ := AccountReader.exists_entry_of_mem_values ha
  obtain ⟨-, -, howner⟩ := AccountReader.token_of_holdingRecord? hrecord
  exact AccountRecord.typedBy_of_untyped AccountReader.untyped_of_mem_heldTokens howner

/-! ### The documents about accounts

One index may get documents of several kinds if indices share a name. The claim about an index is
therefore made for those that get documents about accounts only, and the claim about the documents
without any condition on names, by where they stand. -/

/-- A document is about the account with an address: it is stored under the address, or under a text
that the address and a dash begin, and a body that it puts tells the address. -/
structure Document.IsAbout (address : String) (d : Document) : Prop where
  id : d.id = address ∨ ∃ rest, d.id = address ++ "-" ++ rest
  action : d.action = .delete ∨
    ∃ body, d.action = .put body ∧ Json.lookup "address" body.membersOf = some (.string address)

theorem BalanceSnapshot.lookup_address_toJson (s : BalanceSnapshot) :
    Json.lookup "address" s.toJson.membersOf = some (.string s.address) := by
  simp [toJson, Json.membersOf, Json.lookup]

theorem AccountRecord.isAbout_put (a : AccountRecord) (index : String) :
    (Document.put index a.address a.toJson).IsAbout a.address :=
  ⟨.inl rfl, .inr ⟨_, rfl, a.lookup_address_toJson⟩⟩

theorem AccountRecord.isAbout_holdingDocument (a : AccountRecord) (index : String) :
    (a.holdingDocument index).IsAbout a.address := by
  have hid : a.holdingId = a.address ++ "-" ++ (a.collection ++ "-" ++ nonceText a.tokenNonce) := by
    simp only [holdingId, String.append_assoc]
  obtain ⟨-, h⟩ | ⟨-, h⟩ := a.holdingDocument_cases index <;> rw [h]
  · exact ⟨.inr ⟨_, hid⟩, .inr ⟨_, rfl, a.lookup_address_toJson⟩⟩
  · exact ⟨.inr ⟨_, hid⟩, .inl rfl⟩

theorem BalanceSnapshot.isAbout_put (s : BalanceSnapshot) (index : String) :
    (Document.put index s.id s.toJson).IsAbout s.address := by
  refine ⟨.inr ?_, .inr ⟨_, rfl, s.lookup_address_toJson⟩⟩
  show ∃ rest, s.id = _
  unfold id
  split
  · exact ⟨_, rfl⟩
  · exact ⟨s.collection ++ "-" ++ nonceText s.tokenNonce ++ "-" ++ Digits.ofNat s.timestamp.toNat,
      by simp only [String.append_assoc]⟩

/-- The documents about accounts: those of the accounts and of their history, those of what they
hold, with the changes of items that are held, and those of the history of that. -/
structure AccountDocuments where
  accounts : List Document
  accountHistory : List Document
  holdings : List Document
  holdingHistory : List Document

namespace AccountDocuments

/-- The documents one after another. -/
def toList (s : AccountDocuments) : List Document :=
  s.accounts ++ s.accountHistory ++ s.holdings ++ s.holdingHistory

/-- They are those among some documents: each is in its index, they stand together, and all others
are for other indices. -/
structure AreOf (s : AccountDocuments) (names : IndexNames) (docs : List Document) : Prop where
  accounts : InIndex names.accounts s.accounts
  accountHistory : InIndex names.accountsHistory s.accountHistory
  holdings : InIndex names.tokenAccounts s.holdings
  holdingHistory : InIndex names.tokenAccountsHistory s.holdingHistory
  together : ∃ before after, docs = before ++ s.toList ++ after ∧
    ∀ d ∈ before ++ after, d.index ∈ names.toListWithoutAccounts

/-- Each of the four grows by documents with a property. -/
structure GrowBy (P : Document → Prop) (s s' : AccountDocuments) : Prop where
  accounts : GrowsBy P s.accounts s'.accounts
  accountHistory : GrowsBy P s.accountHistory s'.accountHistory
  holdings : GrowsBy P s.holdings s'.holdings
  holdingHistory : GrowsBy P s.holdingHistory s'.holdingHistory

variable {P : Document → Prop} {s s' : AccountDocuments} {names : IndexNames}
  {docs docs' : List Document}

theorem GrowBy.toList (h : s.GrowBy P s') : GrowsBy P s.toList s'.toList :=
  ((h.accounts.append h.accountHistory).append h.holdings).append h.holdingHistory

theorem GrowBy.imp {P' : Document → Prop} (himp : ∀ d, P d → P' d) (h : s.GrowBy P s') :
    s.GrowBy P' s' :=
  ⟨h.accounts.imp himp, h.accountHistory.imp himp, h.holdings.imp himp,
    h.holdingHistory.imp himp⟩

theorem GrowBy.eq_of_forall_not (hnone : ∀ d, ¬ P d) (h : s.GrowBy P s') : s' = s := by
  obtain ⟨_, _, _, _⟩ := s
  obtain ⟨_, _, _, _⟩ := s'
  rw [mk.injEq]
  exact ⟨h.accounts.eq_of_forall_not hnone, h.accountHistory.eq_of_forall_not hnone,
    h.holdings.eq_of_forall_not hnone, h.holdingHistory.eq_of_forall_not hnone⟩

/-- What an index of no other documents gets is among the documents about accounts. -/
theorem AreOf.filter_eq (h : s.AreOf names docs) {index : String}
    (hindex : index ∉ names.toListWithoutAccounts) :
    docs.filter (index == ·.index) = s.toList.filter (index == ·.index) := by
  obtain ⟨before, after, rfl, hothers⟩ := h.together
  have hnone : ∀ part : List Document, (∀ d ∈ part, d ∈ before ++ after) →
      part.filter (index == ·.index) = [] := by
    intro part hpart
    rw [List.filter_eq_nil_iff]
    intro d hd heq
    exact hindex (beq_iff_eq.mp heq ▸ hothers d (hpart d hd))
  rw [List.filter_append, List.filter_append,
    hnone before fun _ => List.mem_append_left after,
    hnone after fun _ => List.mem_append_right before, List.nil_append, List.append_nil]

end AccountDocuments

namespace Digested

/-- The documents about accounts and what they hold, by what they are about. -/
def aboutAccounts (d : Digested) (held : Registry) (names : IndexNames) : AccountDocuments where
  accounts := accountDocuments names.accounts d.accounts
  accountHistory := snapshotDocuments names.accountsHistory d.accountHistory
  holdings :=
    holdingDocuments names.tokenAccounts (d.holdings.map fun _ a => a.typedBy held)
      ++ heldItemDocuments names.tokenAccounts d.findings.itemUpdates
  holdingHistory := snapshotDocuments names.tokenAccountsHistory d.holdingHistory

theorem areOf_aboutAccounts (d : Digested) (tokens : ResolvedTokens) (names : IndexNames) :
    (d.aboutAccounts tokens.held names).AreOf names (d.documents tokens names) where
  accounts := (writes_map fun _ => writes_put).inIndex
  accountHistory := (writes_map fun _ => writes_put).inIndex
  holdings := by
    intro e he
    rcases List.mem_append.mp he with he | he
    · exact inIndex_holdingDocuments _ e he
    · exact (writes_map fun _ => writes_script).inIndex e he
  holdingHistory := (writes_map fun _ => writes_put).inIndex
  together := by
    have htoList : (d.aboutAccounts tokens.held names).toList =
        d.accountAndHoldingDocuments tokens.held names := by
      simp only [AccountDocuments.toList, aboutAccounts, accountAndHoldingDocuments,
        List.append_assoc]
    rw [htoList]
    exact d.documents_eq_accounts tokens names

end Digested

/-! ### Two runs

Both runs read the same logs and settle the same transactions, so what can differ is what is made of
the accounts. -/

theorem growsBy_snapshotDocuments {r : AccountReader} {address index : String} {stamp : BlockStamp}
    {records records' : Table AccountRecord}
    (h : r.GainsRecords address records.values records'.values) :
    GrowsBy (fun d => d.IsAbout address ∧ ∃ key, r.addresses.decode address = .ok key)
      (snapshotDocuments index (snapshotsOf stamp records))
      (snapshotDocuments index (snapshotsOf stamp records')) := by
  refine (h.growsBy_snapshotsOf stamp).map ?_
  rintro _ ⟨a, ⟨haddress, hkey⟩, rfl⟩
  exact ⟨haddress ▸ (a.snapshot stamp).isAbout_put index, hkey⟩

/-- One account more adds to the documents about accounts only those about itself, and none if its
address cannot be read. -/
theorem Network.growBy_aboutAccounts {n : Network} {b : Block} {a : AlteredAccount}
    {accounts : Dict AlteredAccount} (h : AddsAccount a b.accounts accounts) (importMode : Bool)
    (names : IndexNames) :
    let d := n.digest importMode b
    let d' := n.digest importMode { b with accounts }
    (d.aboutAccounts d.heldTokens names).GrowBy
      (fun e => e.IsAbout a.address ∧ ∃ key, n.addresses.decode a.address = .ok key)
      (d'.aboutAccounts d'.heldTokens names) where
  accounts := (gainsRecords_accounts h importMode).grows.map fun record ⟨haddress, hkey⟩ =>
    ⟨haddress ▸ record.isAbout_put names.accounts, hkey⟩
  accountHistory := growsBy_snapshotDocuments (gainsRecords_accounts h importMode)
  holdings := by
    -- changes of items come from the logs, which stay
    refine GrowsBy.append ?_ (.refl _)
    -- the registry gets more tokens, but still writes nothing
    rw [holdingDocuments, holdingDocuments, values_holdings_typedBy, values_holdings_typedBy]
    exact (gainsRecords_holdings h importMode).grows.map fun record ⟨haddress, hkey⟩ =>
      ⟨haddress ▸ record.isAbout_holdingDocument names.tokenAccounts, hkey⟩
  holdingHistory := growsBy_snapshotDocuments (gainsRecords_holdings h importMode)

/-- One account more does not affect the others. With a store that knows nothing, the documents
about accounts stay as they are and in their order; all that is added is about the new account, and
nothing is if its address cannot be read. The same is true of each index that gets no other
documents. -/
theorem Indexer.process_of_addsAccount (x : Indexer) (b : Block) {a : AlteredAccount}
    {accounts : Dict AlteredAccount} (h : AddsAccount a b.accounts accounts) :
    ∃ docs docs',
      (x.process .empty b).result = .ok docs ∧
      (x.process .empty { b with accounts }).result = .ok docs' ∧
      (∃ s s' : AccountDocuments, s.AreOf x.names docs ∧ s'.AreOf x.names docs' ∧
        s.GrowBy (·.IsAbout a.address) s' ∧
        ((∀ key, x.network.addresses.decode a.address ≠ .ok key) → s' = s)) ∧
      ∀ index ∉ x.names.toListWithoutAccounts,
        GrowsBy (·.IsAbout a.address) (docs.filter (index == ·.index))
          (docs'.filter (index == ·.index)) := by
  set d := x.network.digest x.importMode b
  set d' := x.network.digest x.importMode { b with accounts }
  have hof := d.areOf_aboutAccounts d.toldTokens x.names
  have hof' := d'.areOf_aboutAccounts d'.toldTokens x.names
  have hgrow := Network.growBy_aboutAccounts (n := x.network) h x.importMode x.names
  have habout := hgrow.imp fun _ => And.left
  refine ⟨_, _, x.process_empty_result b, x.process_empty_result _,
    ⟨_, _, hof, hof', habout, fun hunreadable => ?_⟩, fun index hindex => ?_⟩
  · exact hgrow.eq_of_forall_not fun _ ⟨_, key, hkey⟩ => hunreadable key hkey
  · rw [hof.filter_eq hindex, hof'.filter_eq hindex]
    exact habout.toList.filter _

/-- An account whose balance is no number comes to one that holds a token of the same collection. -/
theorem Indexer.process_of_addsAccount_of_malformed :
    let holder : AlteredAccount :=
      { address := "00", balance := "1", tokens := [{ identifier := "A", balance := "1" }] }
    let malformed : AlteredAccount :=
      { address := "01", balance := "x", tokens := [{ identifier := "A", balance := "y" }] }
    let b : Block := { accounts := .ofList [("00", holder)] }
    ∃ docs docs',
      ((⟨default, false, {}⟩ : Indexer).process .empty b).result = .ok docs ∧
      ((⟨default, false, {}⟩ : Indexer).process .empty
        { b with accounts := b.accounts.insert "01" malformed }).result = .ok docs' ∧
      ∀ index ∈ ["accounts", "accountshistory", "accountsesdt", "accountsesdthistory"],
        GrowsBy (·.IsAbout "01") (docs.filter (index == ·.index))
          (docs'.filter (index == ·.index)) := by
  intro holder malformed b
  have hkeyed : b.KeyedByAddress := by
    intro e he
    have hentries : b.accounts.entries = [("00", holder)] := rfl
    rw [hentries, List.mem_singleton] at he
    rw [he]
  have hadds : AddsAccount malformed b.accounts (b.accounts.insert "01" malformed) :=
    addsAccount_insert hkeyed (by decide)
  obtain ⟨docs, docs', hdocs, hdocs', -, hgrow⟩ :=
    process_of_addsAccount ⟨default, false, {}⟩ b hadds
  refine ⟨docs, docs', hdocs, hdocs', fun index hindex => hgrow index ?_⟩
  revert index
  decide

end ChainIndex
