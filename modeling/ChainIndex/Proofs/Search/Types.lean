import ChainIndex.Proofs.Json
import ChainIndex.Proofs.Search.Accounts
import ChainIndex.Proofs.Search.Deletion
import ChainIndex.Proofs.Search.Registries
import ChainIndex.Proofs.Token.Resolve

/-!
# Types and owners of tokens

The store is asked three times: about the items that a block creates, about what accounts hold, and
about the items that are removed. If the names of collections have one dash, each answer ends up
with the tokens of its collection and with no others (`Indexer.process_types`). So holdings and
created items are shown with the type and the owner that the store has of their collections, and the
removed items that are deleted are those whose collections the store has as non-fungible.

An answer goes to the tokens whose collection it names, and to the one whose identifier it names. A
collection with one dash is never the identifier of an item of another one; for other names answers
can go astray, so this is a condition on the block (`Network.NamesCollections`). Under it an answer
is a function of the collection, and resolving a registry comes to looking up each of its tokens.
What remains is to know which tokens the registries have, and that is said by the block: a created,
held or removed item is told by an event or an account, and each one that is told is there. A
registry keeps one token under a name, so an item may be replaced by a later one. That one is of the
same collection, which is all that counts here. The documents are then found in three places, and
each is compared with what it shows, down to the members of its body.
-/

namespace ChainIndex

/-! ### What a block names -/

/-- The names of collections that a block tells are well formed. -/
structure Network.NamesCollections (n : Network) (b : Block) : Prop where
  held : ∀ a ∈ b.accounts.values, ∀ t ∈ a.tokens, IsCollectionName t.identifier
  told : ∀ l ∈ b.logs, ∀ e ∈ l.log.events, n.IsOfItem b.stamp e →
    IsCollectionName (Utf8.lenient (e.topic 0))

/-- A block tells that an item is gone: an account of the shard has burnt or wiped it, or it has
been wiped from an account of the shard. -/
def Network.TellsRemoval (n : Network) (b : Block) (collection : String) (nonce : UInt64) : Prop :=
  ∃ l ∈ b.logs, ∃ e ∈ l.log.events, n.IsOfItem b.stamp e ∧
    Utf8.lenient (e.topic 0) = collection ∧ Bytes.toUInt64 (e.topic 1) = nonce ∧
    (n.sharding.shardOf e.address = b.stamp.shard ∧ e.identifier ≠ createIdentifier ∨
      e.identifier = wipeIdentifier ∧ 4 ≤ e.topics.length ∧
        n.sharding.shardOf (e.topic 3) = b.stamp.shard)

/-- A block tells that an account of the shard has created an item, in a form that can be read. -/
def Network.TellsCreation (n : Network) (b : Block) (collection : String) (nonce : UInt64) :
    Prop :=
  ∃ l ∈ b.logs, ∃ e ∈ l.log.events, n.IsOfItem b.stamp e ∧
    Utf8.lenient (e.topic 0) = collection ∧ Bytes.toUInt64 (e.topic 1) = nonce ∧
    n.sharding.shardOf e.address = b.stamp.shard ∧ e.identifier = createIdentifier ∧
    (n.createdItemOf? b.stamp e).isSome = true

/-! ### Bodies -/

theorem TokenRecord.lookup_toJson (t : TokenRecord) :
    Json.lookup "type" t.toJson.membersOf = Json.textMember? t.type ∧
      Json.lookup "currentOwner" t.toJson.membersOf = Json.textMember? t.currentOwner := by
  unfold toJson Json.membersOf
  cases t.metadata <;> cases t.properties <;>
    simp (disch := decide) [Json.lookup_append, Json.lookup_textField, Json.lookup_countField,
      Json.lookup_listField, Json.lookup]

/-! ### What is shown -/

namespace KnownCollections

/-- A holding is shown as what is known of its collection, which was asked about. Of a token without
items the type is known anyway. -/
structure ShowsHolding (known : KnownCollections) (calls : List StoreCall) (a : AccountRecord) :
    Prop where
  asked : ∃ call ∈ calls, a.collection ∈ call.ids
  type : Json.lookup "type" a.toJson.membersOf =
    Json.textMember? (if (known.facts a.collection).type ≠ "" then (known.facts a.collection).type
      else if a.tokenNonce = 0 then "FungibleESDT" else "")
  currentOwner : Json.lookup "currentOwner" a.toJson.membersOf =
    Json.textMember? (known.facts a.collection).currentOwner

/-- The created items of a registry, which are those that a block tells of, are shown as what is
known of their collections, unless they are counted like money. -/
structure ShowsCreated (known : KnownCollections) (n : Network) (b : Block) (r : Registry)
    (created : List TokenRecord) : Prop where
  shown : created = (r.entries.filter fun t =>
    (known.facts t.collection).type != "MetaESDT").map fun t =>
      t.withFacts (known.facts t.collection)
  distinct : (created.map (·.identifier)).Nodup
  complete : ∀ id, id ∈ created.map (·.identifier) ↔
    ∃ collection nonce, n.TellsCreation b collection nonce ∧
      (known.facts collection).type ≠ "MetaESDT" ∧
      tokenIdentifier collection nonce = id
  type : ∀ t ∈ created, Json.lookup "type" t.toJson.membersOf =
    Json.textMember? (known.facts t.collection).type
  currentOwner : ∀ t ∈ created, Json.lookup "currentOwner" t.toJson.membersOf =
    Json.textMember? (known.facts t.collection).currentOwner

/-- The removed items are deleted whose collections are known as non-fungible. -/
structure Deletes (known : KnownCollections) (n : Network) (b : Block) (removed : List String) :
    Prop where
  distinct : removed.Nodup
  complete : ∀ id, id ∈ removed ↔ ∃ collection nonce, n.TellsRemoval b collection nonce ∧
    (known.facts collection).type ∈
      ["NonFungibleESDT", "NonFungibleESDTv2", "DynamicNonFungibleESDT"] ∧
    tokenIdentifier collection nonce = id

end KnownCollections

/-! ### Where all names are well formed

The tokens of all three lists are then bare: of a named collection, with nothing known of them yet.
So whichever token takes the place of another one in a registry, it is of the same item. -/

namespace Network

variable {n : Network} {b : Block}

theorem isBare_itemOf (stamp : BlockStamp) {e : Event}
    (h : IsCollectionName (Utf8.lenient (e.topic 0))) : (itemOf stamp e).IsBare :=
  ⟨h, ⟨Bytes.toUInt64 (e.topic 1), rfl⟩, rfl, rfl⟩

theorem isBare_of_mem_creations (hb : n.NamesCollections b) :
    ∀ t ∈ n.creations b, t.IsBare ∧ t.identifier ≠ "" := by
  intro t ht
  obtain ⟨_, hevent, ht⟩ := List.mem_flatMap.mp ht
  obtain ⟨l, hl, e, he, rfl⟩ := mem_loggedEvents.mp hevent
  obtain ⟨htold, hitem, -⟩ := mem_creationsOf_iff.mp ht
  obtain ⟨metadata, rfl⟩ := of_createdItemOf? htold
  have hbare := isBare_itemOf b.stamp (hb.told l hl e he hitem)
  exact ⟨⟨hbare.1, hbare.2, rfl, rfl⟩, tokenIdentifier_ne_empty hitem.2.2 _⟩

theorem isBare_of_mem_removals (hb : n.NamesCollections b) : ∀ t ∈ n.removals b, t.IsBare := by
  intro t ht
  obtain ⟨_, hevent, ht⟩ := List.mem_flatMap.mp ht
  obtain ⟨l, hl, e, he, rfl⟩ := mem_loggedEvents.mp hevent
  obtain ⟨rfl, hitem, -⟩ := mem_removalsOf_iff.mp ht
  exact isBare_itemOf b.stamp (hb.told l hl e he hitem)

theorem isBare_of_mem_held (hb : n.NamesCollections b) : ∀ t ∈ n.held b, t.IsBare := by
  intro t ht
  obtain ⟨e, he, ht⟩ := List.mem_flatMap.mp ht
  obtain ⟨-, -, rfl⟩ := AccountReader.mem_heldOf_iff.mp ht
  obtain ⟨a, ha, he⟩ := List.mem_flatMap.mp he
  obtain ⟨h, hh, rfl⟩ := List.mem_map.mp he
  exact ⟨hb.held a (mem_orderedAccounts.mp ha) h hh, ⟨h.nonce, rfl⟩, rfl, rfl⟩

/-- The collection of a holding of which something is left is among those asked about. -/
theorem collection_mem_heldTokens (importMode : Bool) (hb : n.NamesCollections b)
    {e : HoldingEntry} (he : e ∈ holdingEntries b.accounts) {a : AccountRecord}
    (ha : n.accountReader.holdingRecord? b.stamp e = some a) (hbalance : a.balance ∉ ["", "0"]) :
    a.collection ∈ (n.digest importMode b).heldTokens.entries.map (·.collection) := by
  obtain ⟨⟨haddress, hcollection, -, hamount⟩, hkey⟩ := AccountReader.of_holdingRecord? ha
  rw [haddress] at hkey
  rw [hamount, ← isSomeBalance_iff, isSomeBalance_ofInt_iff] at hbalance
  have hheld : ∃ t ∈ n.held b, t.collection = a.collection ∧
      t.identifier = tokenIdentifier e.collection e.nonce :=
    ⟨_, List.mem_flatMap.mpr ⟨e, he, AccountReader.mem_heldOf_iff.mpr ⟨hkey, hbalance, rfl⟩⟩,
      hcollection.symm, rfl⟩
  rw [← Registry.exists_mem_foldl_add_iff (isBare_of_mem_held hb)
    (P := fun collection => collection = a.collection), ← heldTokens_digest_eq] at hheld
  obtain ⟨t, ht, hsame, -⟩ := hheld
  exact List.mem_map.mpr ⟨t, ht, hsame⟩

theorem isBare_heldTokens_digest (importMode : Bool) (hb : n.NamesCollections b) :
    ∀ t ∈ (n.digest importMode b).heldTokens.entries, t.IsBare := by
  intro t ht
  rw [heldTokens_digest_eq] at ht
  exact isBare_of_mem_held hb t
    ((Registry.mem_or_mem_of_mem_foldl_add ht).resolve_left List.not_mem_nil)

theorem isBare_removed_digest (importMode : Bool) (hb : n.NamesCollections b) :
    ∀ t ∈ (n.digest importMode b).findings.removed.entries, t.IsBare := by
  intro t ht
  rw [removed_digest_eq] at ht
  exact isBare_of_mem_removals hb t
    ((Registry.mem_or_mem_of_mem_foldl_add ht).resolve_left List.not_mem_nil)

/-- Metadata tells nothing of the name of an item. -/
theorem isBare_created_digest (importMode : Bool) (hb : n.NamesCollections b) :
    ∀ t ∈ (n.digest importMode b).findings.created.entries, t.IsBare ∧ t.identifier ≠ "" := by
  intro t ht
  rw [created_digest_eq] at ht
  obtain ⟨u, hu, rfl⟩ := List.mem_map.mp ht
  obtain ⟨hbare, hne⟩ := isBare_of_mem_creations hb u
    ((Registry.mem_or_mem_of_mem_foldl_add hu).resolve_left List.not_mem_nil)
  obtain ⟨_, heq⟩ := TokenRecord.describedBy_frame (b.accounts.values.flatMap (·.tokens)) u
  rw [heq]
  exact ⟨⟨hbare.1, hbare.2, hbare.3, hbare.4⟩, hne⟩

/-- The items that are created are those that the block tells to be created. -/
theorem mem_created_digest (importMode : Bool) (hb : n.NamesCollections b) {id : String}
    {P : String → Prop} :
    (∃ t ∈ (n.digest importMode b).findings.created.entries, P t.collection ∧ t.identifier = id) ↔
      ∃ collection nonce, n.TellsCreation b collection nonce ∧ P collection ∧
        tokenIdentifier collection nonce = id := by
  have hframe : ∀ t : TokenRecord,
      (t.describedBy (b.accounts.values.flatMap (·.tokens))).collection = t.collection ∧
        (t.describedBy (b.accounts.values.flatMap (·.tokens))).identifier = t.identifier := by
    intro t
    obtain ⟨_, heq⟩ := TokenRecord.describedBy_frame (b.accounts.values.flatMap (·.tokens)) t
    rw [heq]
    exact ⟨rfl, rfl⟩
  rw [created_digest_eq]
  simp only [Registry.describe, Registry.update, List.mem_map, exists_exists_and_eq_and, hframe]
  rw [Registry.exists_mem_foldl_add_iff fun t ht => (isBare_of_mem_creations hb t ht).1]
  constructor
  · rintro ⟨t, ht, hP, rfl⟩
    obtain ⟨_, hevent, ht⟩ := List.mem_flatMap.mp ht
    obtain ⟨l, hl, e, he, rfl⟩ := mem_loggedEvents.mp hevent
    obtain ⟨htold, hitem, hshard, hid⟩ := mem_creationsOf_iff.mp ht
    obtain ⟨metadata, rfl⟩ := of_createdItemOf? htold
    exact ⟨_, _, ⟨l, hl, e, he, hitem, rfl, rfl, hshard, hid, Option.isSome_of_eq_some htold⟩, hP,
      rfl⟩
  · rintro ⟨_, _, ⟨l, hl, e, he, hitem, rfl, rfl, hshard, hid, hreads⟩, hP, rfl⟩
    obtain ⟨t, htold⟩ := Option.isSome_iff_exists.mp hreads
    obtain ⟨metadata, rfl⟩ := of_createdItemOf? htold
    exact ⟨_, List.mem_flatMap.mpr ⟨_, mem_loggedEvents.mpr ⟨l, hl, e, he, rfl⟩,
      mem_creationsOf_iff.mpr ⟨htold, hitem, hshard, hid⟩⟩, hP, rfl⟩

/-- The items that are removed are those that the block tells to be gone. -/
theorem mem_removed_digest (importMode : Bool) (hb : n.NamesCollections b) {id : String}
    {P : String → Prop} :
    (∃ t ∈ (n.digest importMode b).findings.removed.entries, P t.collection ∧ t.identifier = id) ↔
      ∃ collection nonce, n.TellsRemoval b collection nonce ∧ P collection ∧
        tokenIdentifier collection nonce = id := by
  rw [removed_digest_eq, Registry.exists_mem_foldl_add_iff (isBare_of_mem_removals hb)]
  constructor
  · rintro ⟨t, ht, hP, rfl⟩
    obtain ⟨_, hevent, ht⟩ := List.mem_flatMap.mp ht
    obtain ⟨l, hl, e, he, rfl⟩ := mem_loggedEvents.mp hevent
    obtain ⟨rfl, hitem, htold⟩ := mem_removalsOf_iff.mp ht
    exact ⟨_, _, ⟨l, hl, e, he, hitem, rfl, rfl, htold⟩, hP, rfl⟩
  · rintro ⟨_, _, ⟨l, hl, e, he, hitem, rfl, rfl, htold⟩, hP, rfl⟩
    exact ⟨_, List.mem_flatMap.mpr ⟨_, mem_loggedEvents.mpr ⟨l, hl, e, he, rfl⟩,
      mem_removalsOf_iff.mpr ⟨rfl, hitem, htold⟩⟩, hP, rfl⟩

end Network

/-! ### The documents

Among the documents for the two indices, scripts are told apart from bodies and deletions by their
action. What scripts do to types is a matter of other events. -/

/-- A script changes what may be stored. -/
def Document.IsUpdate (d : Document) : Prop :=
  ∃ script body, d.action = .update script body

theorem Document.isUpdate_script (index id : String) (script : UpdateScript) :
    (Document.script index id script).IsUpdate :=
  ⟨script, _, rfl⟩

theorem Document.isUpdate_update (index id : String) (script : UpdateScript) (body : Json) :
    (Document.update index id script body).IsUpdate :=
  ⟨script, body, rfl⟩

section Updates

variable {index : String}

theorem isUpdate_of_mem_heldItemDocuments {updates : List ItemUpdate} {d : Document}
    (hd : d ∈ heldItemDocuments index updates) : d.IsUpdate := by
  obtain ⟨u, -, rfl⟩ := List.mem_map.mp hd
  exact Document.isUpdate_script _ _ _

theorem isUpdate_issueDocument (t : TokenRecord) : (t.issueDocument index).IsUpdate := by
  obtain ⟨_, h⟩ | h | h := t.issueDocument_cases index <;> rw [h]
  · exact Document.isUpdate_update _ _ _ _
  · exact Document.isUpdate_script _ _ _
  · exact Document.isUpdate_update _ _ _ _

theorem isUpdate_of_mem_tokenDocuments {issued : List TokenRecord} {updates : List ItemUpdate}
    {d : Document} (hd : d ∈ tokenDocuments index issued updates) : d.IsUpdate := by
  rcases List.mem_append.mp hd with hd | hd
  · obtain ⟨t, -, rfl⟩ := List.mem_map.mp hd
    exact isUpdate_issueDocument t
  · obtain ⟨u, -, rfl⟩ := List.mem_map.mp hd
    exact Document.isUpdate_script _ _ _

theorem isUpdate_of_mem_roleDocuments {book : RoleBook} {d : Document}
    (hd : d ∈ roleDocuments index book) : d.IsUpdate := by
  rcases List.mem_append.mp hd with hd | hd
  · obtain ⟨e, -, hd⟩ := List.mem_flatMap.mp hd
    obtain ⟨c, -, rfl⟩ := List.mem_map.mp hd
    obtain h | h := c.document_cases index e.1 <;> rw [h]
    · exact Document.isUpdate_update _ _ _ _
    · exact Document.isUpdate_script _ _ _
  · obtain ⟨p, -, rfl⟩ := List.mem_map.mp hd
    exact Document.isUpdate_script _ _ _

end Updates

/-- The names of all indices but those of tokens and of what accounts hold. -/
def IndexNames.toListWithoutTokens (names : IndexNames) : List String :=
  [names.transactions, names.results, names.receipts, names.accounts, names.accountsHistory,
    names.tokenAccountsHistory, names.esdts, names.deploys, names.delegators, names.logs,
    names.events, names.tags, names.operations]

/-- Created items, holdings and removed items are in three places, and whatever else there is for
their indices is a script. -/
theorem Digested.documents_eq_tokens (d : Digested) (tokens : ResolvedTokens)
    (names : IndexNames) :
    ∃ front middle middle' back,
      d.documents tokens names =
        front ++ createdDocuments names.tokens tokens.created ++ middle ++
          holdingDocuments names.tokenAccounts (d.holdings.map fun _ a => a.typedBy tokens.held) ++
          middle' ++ removalDocuments names.tokens tokens.removed ++ back ∧
      ∀ e ∈ front ++ middle ++ middle' ++ back,
        e.IsUpdate ∨ e.index ∈ names.toListWithoutTokens := by
  set ss := d.sections tokens names with hss
  refine ⟨(ss.take 5).flatMap Prod.snd, ((ss.drop 6).take 6).flatMap Prod.snd,
    ((ss.drop 13).take 6).flatMap Prod.snd, (ss.drop 20).flatMap Prod.snd, ?_, ?_⟩
  · simp only [hss, documents, recordDocuments, logAndResultDocuments, accountAndHoldingDocuments,
      findingDocuments, sections, List.take_succ_cons, List.take_zero, List.drop_succ_cons,
      List.drop_zero, List.flatMap_cons, List.flatMap_nil, List.append_assoc, List.append_nil]
  · intro e he
    rw [← List.flatMap_append, ← List.flatMap_append, ← List.flatMap_append] at he
    have hothers : ∀ s ∈ ss.take 5 ++ (ss.drop 6).take 6 ++ (ss.drop 13).take 6 ++ ss.drop 20,
        (∀ e ∈ s.2, e.IsUpdate) ∨ s.1 ∈ names.toListWithoutTokens := by
      simp only [hss, sections, List.take_succ_cons, List.take_zero, List.drop_succ_cons,
        List.drop_zero, List.cons_append, List.nil_append, List.forall_mem_cons]
      simp only [IndexNames.toListWithoutTokens, List.mem_cons, true_or, or_true, true_and,
        List.not_mem_nil, IsEmpty.forall_iff, implies_true, and_true]
      exact ⟨.inl fun _ => isUpdate_of_mem_heldItemDocuments,
        .inl fun _ => isUpdate_of_mem_tokenDocuments, .inl fun _ => isUpdate_of_mem_roleDocuments⟩
    obtain ⟨s, hs, he⟩ := List.mem_flatMap.mp he
    rcases hothers s hs with hupdates | hindex
    · exact .inl (hupdates e he)
    · have hmiddle : ∀ k, (ss.drop k).take 6 ⊆ ss := fun k =>
        List.Subset.trans (List.take_subset _ _) (List.drop_subset _ _)
      have hsections : ss.take 5 ++ (ss.drop 6).take 6 ++ (ss.drop 13).take 6 ++ ss.drop 20 ⊆
          ss := by
        simp only [List.append_subset]
        exact ⟨⟨⟨List.take_subset _ _, hmiddle 6⟩, hmiddle 13⟩, List.drop_subset _ _⟩
      rw [Digested.index_eq_of_mem_sections (hsections hs) he]
      exact .inr hindex

/-- A holding gets what is known of its collection. -/
theorem AccountRecord.typedBy_of_facts {known : KnownCollections} {held held' : Registry}
    (hheld : held'.entries = held.entries.map fun t => t.withFacts (known.facts t.collection))
    {a : AccountRecord} (ha : a.collection ∈ held.entries.map (·.collection)) :
    a.typedBy held' =
      { a with
        type := if (known.facts a.collection).type = "" then a.type
          else (known.facts a.collection).type
        currentOwner := (known.facts a.collection).currentOwner } := by
  obtain ⟨t, ht, hcollection⟩ := List.mem_map.mp ha
  have hsome : (held'.ofCollection? a.collection).isSome := by
    rw [Registry.ofCollection?, List.find?_isSome, hheld]
    exact ⟨_, List.mem_map_of_mem ht, beq_iff_eq.mpr hcollection⟩
  -- it may be another token of the collection that is found, with the same facts
  obtain ⟨u, hu⟩ := Option.isSome_iff_exists.mp hsome
  obtain ⟨hmem, hmine⟩ := Registry.of_ofCollection? hu
  rw [hheld] at hmem
  obtain ⟨v, -, rfl⟩ := List.mem_map.mp hmem
  have hv : v.collection = a.collection := hmine
  unfold typedBy
  rw [hu, ← hv]
  simp only [TokenRecord.withFacts, String.isEmpty_iff]

namespace KnownCollections

variable {known : KnownCollections} {n : Network} {importMode : Bool} {b : Block}

/-- Holdings that are not empty are shown as what is known of their collections. -/
theorem showsHolding_digest (hb : n.NamesCollections b) {held : Registry}
    (hheld : held.entries = (n.digest importMode b).heldTokens.entries.map fun t =>
      t.withFacts (known.facts t.collection)) (index : String) {a : AccountRecord}
    (ha : a ∈ (n.digest importMode b).holdings.values) (hbalance : a.balance ∉ ["", "0"]) :
    known.ShowsHolding ((n.digest importMode b).heldTokens.requests index) (a.typedBy held) := by
  obtain ⟨e, he, hrecord⟩ := AccountReader.exists_entry_of_mem_values ha
  have hmem : a.collection ∈ (n.digest importMode b).heldTokens.entries.map (·.collection) :=
    Network.collection_mem_heldTokens importMode hb he hrecord hbalance
  obtain ⟨⟨-, -, hnonce, -⟩, -⟩ := AccountReader.of_holdingRecord? hrecord
  obtain ⟨-, htype, -⟩ := AccountReader.token_of_holdingRecord? hrecord
  rw [AccountRecord.typedBy_of_facts hheld hmem]
  refine ⟨Registry.exists_call_of_mem_collections hmem index, ?_, ?_⟩
  · rw [(AccountRecord.lookup_toJson _).2.1, htype, ← hnonce, ite_not]
    rfl
  · rw [(AccountRecord.lookup_toJson _).2.2]

/-- Created items are shown as what is known of their collections. -/
theorem showsCreated_digest (hb : n.NamesCollections b) {created : Registry}
    (hcreated : created.entries = (n.digest importMode b).findings.created.entries.map fun t =>
      t.withFacts (known.facts t.collection)) :
    known.ShowsCreated n b (n.digest importMode b).findings.created created.shownItems := by
  have hshown : created.shownItems =
      ((n.digest importMode b).findings.created.entries.filter fun t =>
        (known.facts t.collection).type != "MetaESDT").map fun t =>
          t.withFacts (known.facts t.collection) := by
    rw [Registry.shownItems, hcreated, List.filter_map]
    rfl
  have hmem : ∀ t ∈ created.shownItems,
      ∃ u : TokenRecord, t = u.withFacts (known.facts u.collection) := by
    intro t ht
    rw [hshown] at ht
    obtain ⟨u, -, rfl⟩ := List.mem_map.mp ht
    exact ⟨u, rfl⟩
  constructor
  case shown => exact hshown
  case distinct =>
    refine (Registry.nodup_identifier fun t ht => ?_).sublist
      ((List.filter_sublist (l := created.entries)).map _)
    rw [hcreated] at ht
    obtain ⟨u, hu, rfl⟩ := List.mem_map.mp ht
    exact (Network.isBare_created_digest importMode hb u hu).2
  case complete =>
    intro id
    rw [← Network.mem_created_digest (n := n) importMode hb
      (P := fun collection => (known.facts collection).type ≠ "MetaESDT"),
      hshown, List.map_map, List.mem_map]
    simp only [List.mem_filter, bne_iff_ne, and_assoc]
    rfl
  case type =>
    intro t ht
    obtain ⟨u, rfl⟩ := hmem t ht
    exact (TokenRecord.lookup_toJson _).1
  case currentOwner =>
    intro t ht
    obtain ⟨u, rfl⟩ := hmem t ht
    exact (TokenRecord.lookup_toJson _).2

/-- Of the removed items those are deleted whose collections are known as non-fungible. -/
theorem deletes_digest (hb : n.NamesCollections b) {removed : Registry}
    (hremoved : removed.entries = (n.digest importMode b).findings.removed.entries.map fun t =>
      t.withFacts (known.facts t.collection)) :
    known.Deletes n b ((removed.entries.filter fun t => TokenType.isNonFungible t.type).map
      (·.identifier)) := by
  refine ⟨?_, fun id => ?_⟩
  · have hnodup := n.nodup_removed_digest importMode b
    have hidentifiers : removed.entries.map (·.identifier) =
        (n.digest importMode b).findings.removed.entries.map (·.identifier) := by
      rw [hremoved, List.map_map]
      rfl
    rw [← hidentifiers] at hnodup
    exact hnodup.sublist (List.filter_sublist.map _)
  · have hkinds : ∀ type : String, TokenType.isNonFungible type = true ↔
        type ∈ ["NonFungibleESDT", "NonFungibleESDTv2", "DynamicNonFungibleESDT"] :=
      fun _ => List.contains_iff_mem
    rw [← Network.mem_removed_digest (n := n) importMode hb
      (P := fun collection => (known.facts collection).type ∈ _), hremoved]
    simp only [List.mem_map, List.mem_filter, exists_exists_and_eq_and, TokenRecord.withFacts,
      hkinds, and_assoc]

end KnownCollections

/-- A run that succeeds has asked about the created items, the holdings and the removed items. -/
theorem Indexer.calls_process {x : Indexer} {store : TokenStore} {b : Block}
    {tokens : ResolvedTokens}
    (h : ((x.network.digest x.importMode b).resolve store x.names.tokens).result = .ok tokens) :
    let d := x.network.digest x.importMode b
    (x.process store b).calls =
      d.findings.created.requests x.names.tokens ++ d.heldTokens.requests x.names.tokens ++
        d.findings.removed.requests x.names.tokens := by
  intro d
  obtain ⟨hcreated, hheld, hremoved⟩ := Digested.resolve_result_eq_ok_iff.mp h
  rw [process, Consultation.calls_bind_of_ok h, Digested.resolve,
    Consultation.calls_bind_of_ok hcreated, Consultation.calls_bind_of_ok hheld,
    Consultation.calls_bind_of_ok hremoved, TokenStore.calls_resolve, TokenStore.calls_resolve,
    TokenStore.calls_resolve, Consultation.calls_pure, Consultation.calls_pure, List.append_nil,
    List.append_nil, List.append_assoc]

/-- What is known of the collections of a block goes to its created items, to its holdings, and
decides which of its removed items are deleted. -/
theorem Indexer.process_types (x : Indexer) {store : TokenStore} {known : KnownCollections}
    (hstore : store.AnswersFrom x.names.tokens known) {b : Block}
    (hb : x.network.NamesCollections b) :
    let d := x.network.digest x.importMode b
    ∃ front created middle middle' back, ∃ holdings : List AccountRecord,
      ∃ holdingDocs : List Document, ∃ removed : List String,
        (x.process store b).result = .ok
          (front ++ created.map (fun t => .put x.names.tokens t.identifier t.toJson) ++ middle ++
            holdingDocs ++ middle' ++ removed.map (.delete x.names.tokens) ++ back) ∧
        (∀ e ∈ front ++ middle ++ middle' ++ back,
          e.IsUpdate ∨ e.index ∈ x.names.toListWithoutTokens) ∧
        (x.process store b).calls =
          d.findings.created.requests x.names.tokens ++ d.heldTokens.requests x.names.tokens ++
            d.findings.removed.requests x.names.tokens ∧
        List.Forall₂ (AccountRecord.Writes x.names.tokenAccounts) holdings holdingDocs ∧
        x.network.ShowsHoldings b holdings d.holdingHistory.values ∧
        (∀ a ∈ holdings, a.balance ∉ ["", "0"] →
          known.ShowsHolding (d.heldTokens.requests x.names.tokens) a) ∧
        known.ShowsCreated x.network b d.findings.created created ∧
        known.Deletes x.network b removed := by
  intro d
  -- each of the three registries is resolved by itself, whatever the store has said before
  obtain ⟨created, hcreated, hcreatedEntries⟩ :=
    TokenStore.exists_resolve_of_answersFrom hstore fun t ht =>
      (Network.isBare_created_digest x.importMode hb t ht).1
  obtain ⟨held, hheld, hheldEntries⟩ := TokenStore.exists_resolve_of_answersFrom hstore
    (r := d.heldTokens) (Network.isBare_heldTokens_digest x.importMode hb)
  obtain ⟨removed, hremoved, hremovedEntries⟩ := TokenStore.exists_resolve_of_answersFrom hstore
    (Network.isBare_removed_digest x.importMode hb)
  have htokens : (d.resolve store x.names.tokens).result = .ok ⟨created, held, removed⟩ :=
    Digested.resolve_result_eq_ok_iff.mpr ⟨hcreated, hheld, hremoved⟩
  obtain ⟨front, middle, middle', back, hdocs, hothers⟩ :=
    d.documents_eq_tokens ⟨created, held, removed⟩ x.names
  have hholdings : (d.holdings.map fun _ a => a.typedBy held).values =
      d.holdings.values.map (·.typedBy held) := Table.values_map _ _
  refine ⟨front, created.shownItems, middle, middle', back,
    (d.holdings.map fun _ a => a.typedBy held).values, _, _, ?_, hothers, calls_process htokens,
    AccountRecord.forall₂_writes _ _, x.network.showsHoldings_digest x.importMode b held, ?_,
    KnownCollections.showsCreated_digest hb hcreatedEntries,
    KnownCollections.deletes_digest hb hremovedEntries⟩
  · refine process_result_eq_ok_iff.mpr ⟨_, htokens, hdocs.trans ?_⟩
    rw [holdingDocuments, removalDocuments, List.map_map (g := Document.delete _)]
    rfl
  · intro a ha hbalance
    rw [hholdings] at ha
    obtain ⟨a', ha', rfl⟩ := List.mem_map.mp ha
    rw [AccountRecord.balance_typedBy] at hbalance
    exact KnownCollections.showsHolding_digest hb hheldEntries x.names.tokens ha' hbalance

/-- A block creates one item of a collection, burns another one, and has an account that holds a
third. The store has the collection as non-fungible. So the burnt item is deleted, and the other
two are shown with this type and with the owner of the collection. -/
theorem Indexer.process_types_of_burnt_item :
    let holder : AlteredAccount :=
      { address := "00", tokens := [{ identifier := "A-1", nonce := 2, balance := "1" }] }
    let create : Event :=
      { address := [0], identifier := "ESDTNFTCreate"
        topics := [[65, 45, 49], [3], [], [0x7B, 0x7D]] }
    let burn : Event :=
      { address := [0], identifier := "ESDTNFTBurn", topics := [[65, 45, 49], [1]] }
    let b : Block :=
      { pool := some { logs := [⟨"01", ⟨[0], [create, burn]⟩⟩] }
        accounts := .ofList [("00", holder)] }
    let known : KnownCollections :=
      fun _ => some { type := "NonFungibleESDT", currentOwner := "0a" }
    let shown (body : Json) : Prop :=
      Json.lookup "type" body.membersOf = some (.string "NonFungibleESDT") ∧
        Json.lookup "currentOwner" body.membersOf = some (.string "0a")
    ∃ docs, ((⟨default, false, {}⟩ : Indexer).process known.store b).result = .ok docs ∧
      .delete "tokens" "A-1-01" ∈ docs ∧
      (∃ body, .put "tokens" "A-1-03" body ∈ docs ∧ shown body) ∧
      ∃ body, .put "accountsesdt" "00-A-1-02" body ∈ docs ∧ shown body := by
  intro holder create burn b known shown
  have hvalues : b.accounts.values = [holder] := rfl
  have hnames : (default : Network).NamesCollections b := by
    constructor
    · intro a ha t ht
      rw [hvalues, List.mem_singleton] at ha
      subst ha
      rw [List.mem_singleton.mp ht]
      decide
    · intro l hl e he _
      rw [List.mem_singleton.mp hl] at he
      rcases List.mem_pair.mp he with rfl | rfl
      · decide
      · decide
  obtain ⟨front, created, middle, middle', back, holdings, holdingDocs, removed, hresult, -, -,
    hwrites, hshows, hholdings, hcreated, hdeletes⟩ :=
    process_types ⟨default, false, {}⟩ (known.answersFrom_store _) hnames
  set docs := front ++ created.map (fun t => .put "tokens" t.identifier t.toJson) ++ middle ++
    holdingDocs ++ middle' ++ removed.map (.delete "tokens") ++ back with hdocs
  refine ⟨docs, hresult, ?_, ?_, ?_⟩
  · have hgone : (default : Network).TellsRemoval b "A-1" 1 :=
      ⟨_, List.mem_singleton_self _, burn, .tail _ (.head _), by decide, by decide, by decide,
        .inl (by decide)⟩
    have hmem : "A-1-01" ∈ removed :=
      (hdeletes.complete _).mpr ⟨_, _, hgone, by decide, by decide +kernel⟩
    exact List.mem_append_left _ (List.mem_append_right _ (List.mem_map_of_mem hmem))
  · have htold : (default : Network).TellsCreation b "A-1" 3 :=
      ⟨_, List.mem_singleton_self _, create, .head _, by decide, by decide, by decide, by decide,
        rfl, by decide⟩
    have hmem : "A-1-03" ∈ created.map (·.identifier) :=
      (hcreated.complete _).mpr ⟨_, _, htold, by decide, by decide +kernel⟩
    obtain ⟨t, ht, hid⟩ := List.mem_map.mp hmem
    refine ⟨t.toJson, ?_, hcreated.type t ht, hcreated.currentOwner t ht⟩
    have hput : Document.put "tokens" "A-1-03" t.toJson ∈
        created.map fun t => .put "tokens" t.identifier t.toJson :=
      List.mem_map.mpr ⟨t, ht, by rw [hid]⟩
    rw [hdocs]
    simp only [List.mem_append, hput, or_true, true_or]
  · have htold : (default : Network).TellsHolding b ⟨"00", "A-1", 2⟩ :=
      ⟨holder, hvalues ▸ List.mem_singleton_self _, rfl, ⟨_, .head _, rfl, rfl⟩, [0], by decide⟩
    obtain ⟨a, ha, hname, d, hd, hwritten⟩ := hshows.exists_document hwrites htold
    have hone : a.balance = "1" := by
      rw [hshows.balance_eq hvalues ⟨[], [], rfl, ⟨rfl, rfl⟩, nofun⟩ ha hname]
      decide
    have hheld : a.balance ∉ ["", "0"] := by
      rw [hone]
      decide
    obtain ⟨-, htype, howner⟩ := hholdings a ha hheld
    refine ⟨a.toJson, ?_, htype, howner⟩
    have hid : a.holdingName.id = "00-A-1-02" := by
      rw [hname]
      decide +kernel
    cases hwritten with
    | deleted empty => exact absurd empty hheld
    | stored _ =>
        rw [hid] at hd
        exact List.mem_append_left _ (List.mem_append_left _ (List.mem_append_left _
          (List.mem_append_right _ hd)))

end ChainIndex
