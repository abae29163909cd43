import ChainIndex.Proofs.Account
import ChainIndex.Proofs.Indexer
import ChainIndex.Proofs.Search.Index
import ChainIndex.Proofs.Token.Registry

/-!
# When deletions last

Documents are written in order, so what a block deletes stays deleted only if no later document of
the block is for the same identifier. `Indexer.staysDeleted_iff` says exactly when. There are
three ways to fail: an emptied holding whose item changes, a removed item that is named like a token
whose roles or properties change, and a closed delegation whose digest another one shares. A script
for what is missing stores a body, so in each of them something comes back.

To stay deleted is a relation between any two documents, of which the first comes earlier. It is
only about documents of one index, so it is settled index by index (`staysDeleted_iff_filter`), and
of the fourteen indices only three get deletions. In each of the three the deletions stand together,
and no two documents among them have one identifier. What is in front of them cannot hurt. So there
is one condition for each of the three indices, on the documents that stand behind, and the
conditions together are exact.
-/

namespace ChainIndex

/-! ### Documents that respect deletions -/

/-- A document that comes later leaves alone what an earlier one of the same index deletes. -/
def Document.RespectedBy (d e : Document) : Prop :=
  d.action = .delete → d.id ≠ e.id

/-- No document comes after the deletion of what it is for. -/
def StaysDeleted (docs : List Document) : Prop :=
  docs.Pairwise fun d e => d.index = e.index → d.RespectedBy e

/-- Deletions last if they last in every index on its own. -/
theorem staysDeleted_iff_filter {docs : List Document} :
    StaysDeleted docs ↔
      ∀ index, (docs.filter fun e => index == e.index).Pairwise Document.RespectedBy := by
  constructor
  · intro h index
    refine (h.filter _).imp_of_mem ?_
    intro d e hd he hde
    have hd := beq_iff_eq.mp (List.mem_filter.mp hd).2
    have he := beq_iff_eq.mp (List.mem_filter.mp he).2
    exact hde (hd.symm.trans he)
  · intro h
    unfold StaysDeleted
    induction docs with
    | nil => exact List.Pairwise.nil
    | cons d rest ih =>
        refine List.pairwise_cons.mpr ⟨?_, ih fun index => ?_⟩
        · intro e he hindex
          have hd := h d.index
          rw [List.filter_cons_of_pos (by simp)] at hd
          exact List.rel_of_pairwise_cons hd (List.mem_filter.mpr ⟨he, by simpa using hindex⟩)
        · exact (h index).sublist ((List.sublist_cons_self d rest).filter _)

/-! Where some documents delete nothing, a concatenation is easy to judge: in front they have no
say, and behind they have to keep off what is deleted. -/

section Sections

variable {index : String} {docs docs' : List Document}

theorem Writes.pairwise (h : Writes index docs) : docs.Pairwise Document.RespectedBy :=
  List.pairwise_of_forall_mem_list fun d hd _ _ hdelete => absurd hdelete (h d hd).2

/-- Documents that delete nothing may come first. -/
theorem Writes.pairwise_append_iff (h : Writes index docs) :
    (docs ++ docs').Pairwise Document.RespectedBy ↔ docs'.Pairwise Document.RespectedBy := by
  rw [List.pairwise_append]
  exact ⟨fun hp => hp.2.1, fun hp => ⟨h.pairwise, hp,
    fun d hd _ _ hdelete => absurd hdelete (h d hd).2⟩⟩

/-- Documents that delete nothing may come last if they respect what is deleted in front. -/
theorem Writes.append_pairwise_iff (h : Writes index docs')
    (hdocs : docs.Pairwise Document.RespectedBy) :
    (docs ++ docs').Pairwise Document.RespectedBy ↔
      ∀ d ∈ docs, d.action = .delete → ∀ e ∈ docs', e.id ≠ d.id := by
  rw [List.pairwise_append]
  constructor
  · intro hp d hd hdelete e he heq
    exact hp.2.2 d hd e he hdelete heq.symm
  · intro hp
    exact ⟨hdocs, h.pairwise, fun d hd e he hdelete heq => hp d hd hdelete e he heq.symm⟩

end Sections

/-! ### The deletions of a block -/

/-- Nothing that a block tells undoes one of its deletions. -/
structure Digested.DeletesLast (d : Digested) (removed : Registry) : Prop where
  /-- No item changes of which a holder has nothing left. -/
  holdings : ∀ a ∈ d.holdings.values, isSomeBalance a.balance = false →
    ∀ u ∈ d.findings.itemUpdates, u.change.isOfHolder = true →
      u.address ++ "-" ++ u.identifier ≠ a.holdingId
  /-- No roles or properties change of a token with the name of a removed item. -/
  items : ∀ t ∈ removed.entries, TokenType.isNonFungible t.type = true →
    (∀ e ∈ d.findings.roleBook.roles.entries, ∀ c ∈ e.2, c.token ≠ t.identifier) ∧
      ∀ p ∈ d.findings.roleBook.properties, p.token ≠ t.identifier
  /-- No delegation has the digest of a closed one in front of it. -/
  delegations : d.findings.delegations.values.Pairwise fun a b => a.isClosed = true → a.id ≠ b.id

section Kinds

variable {index : String}

theorem holdingDocument_delete_iff {a : AccountRecord} :
    (a.holdingDocument index).action = .delete ↔ isSomeBalance a.balance = false := by
  obtain ⟨hbalance, h⟩ | ⟨hbalance, h⟩ := a.holdingDocument_cases index <;>
    simp [h, hbalance, Document.put, Document.delete]

@[simp] theorem id_holdingDocument (a : AccountRecord) :
    (a.holdingDocument index).id = a.holdingId := by
  obtain ⟨-, h⟩ | ⟨-, h⟩ := a.holdingDocument_cases index <;> rw [h] <;> rfl

theorem delegationDocument_delete_iff {d : Delegation} :
    (d.document index).action = .delete ↔ d.isClosed = true := by
  obtain ⟨hclosed, h⟩ | ⟨hclosed, h⟩ := d.document_cases index <;>
    simp [h, hclosed, Document.update, Document.delete]

@[simp] theorem id_delegationDocument (d : Delegation) : (d.document index).id = d.id := by
  obtain ⟨-, h⟩ | ⟨-, h⟩ := d.document_cases index <;> rw [h] <;> rfl

theorem holdingDocuments_map_typedBy (holdings : Table AccountRecord) (held : Registry) :
    holdingDocuments index (holdings.map fun _ a => a.typedBy held) =
      holdings.values.map fun a => (a.typedBy held).holdingDocument index := by
  simp [holdingDocuments, Table.values, Table.map]

/-- The documents of holdings never collide. -/
theorem pairwise_holdingDocuments {holdings : Table AccountRecord} (held : Registry)
    (h : (holdings.values.map (·.holdingId)).Nodup) :
    (holdingDocuments index (holdings.map fun _ a => a.typedBy held)).Pairwise
      Document.RespectedBy := by
  rw [holdingDocuments_map_typedBy, List.pairwise_map]
  refine (List.pairwise_map.mp h).imp ?_
  intro a b hne _ heq
  apply hne
  simpa using heq

/-- The documents of removed items never collide. -/
theorem pairwise_removalDocuments {removed : Registry}
    (h : (removed.entries.map (·.identifier)).Nodup) :
    (removalDocuments index removed).Pairwise Document.RespectedBy := by
  rw [removalDocuments, List.pairwise_map]
  refine ((List.pairwise_map.mp h).filter _).imp ?_
  intro t u hne _ heq
  exact hne heq

end Kinds

/-! ### The three indices that lose documents

Holdings and removed items have identifiers of their own, since the tables that they come from are
told apart by them. Delegations have not, as their identifiers are digests, so there the condition
stays a relation between any two. -/

section Indices

variable {d : Digested} {tokens : ResolvedTokens} {names : IndexNames}

theorem pairwise_tokenAccounts_iff {index : String} {holdings : Table AccountRecord}
    (held : Registry) (updates : List ItemUpdate)
    (hids : (holdings.values.map (·.holdingId)).Nodup) :
    (holdingDocuments index (holdings.map fun _ a => a.typedBy held) ++
        heldItemDocuments index updates).Pairwise Document.RespectedBy ↔
      ∀ a ∈ holdings.values, isSomeBalance a.balance = false →
        ∀ u ∈ updates, u.change.isOfHolder = true →
          u.address ++ "-" ++ u.identifier ≠ a.holdingId := by
  have hwrites : Writes index (heldItemDocuments index updates) :=
    writes_map fun _ => writes_script
  rw [hwrites.append_pairwise_iff (pairwise_holdingDocuments held hids),
    holdingDocuments_map_typedBy, heldItemDocuments]
  simp only [List.forall_mem_map, List.mem_filter, holdingDocument_delete_iff,
    id_holdingDocument, AccountRecord.balance_typedBy, AccountRecord.holdingId_typedBy, and_imp]
  rfl

theorem pairwise_tokens_iff {index : String} {removed : Registry} (created : Registry)
    (issued : List TokenRecord) (updates : List ItemUpdate) (b : RoleBook)
    (hids : (removed.entries.map (·.identifier)).Nodup) :
    (createdDocuments index created ++ (tokenDocuments index issued updates ++
        (removalDocuments index removed ++ roleDocuments index b))).Pairwise
          Document.RespectedBy ↔
      ∀ t ∈ removed.entries, TokenType.isNonFungible t.type = true →
        (∀ e ∈ b.roles.entries, ∀ c ∈ e.2, c.token ≠ t.identifier) ∧
          ∀ p ∈ b.properties, p.token ≠ t.identifier := by
  have hcreated : Writes index (createdDocuments index created) :=
    writes_map fun _ => writes_put
  have hrole : ∀ role (c : RoleChange), (c.document index role).id = c.token := by
    intro role c
    obtain h | h := c.document_cases index role <;> rw [h] <;> rfl
  rw [hcreated.pairwise_append_iff, (writes_tokenDocuments issued updates).pairwise_append_iff,
    (writes_roleDocuments b).append_pairwise_iff (pairwise_removalDocuments hids),
    removalDocuments, roleDocuments]
  simp only [List.forall_mem_map, List.mem_filter, List.forall_mem_append, List.forall_mem_flatMap,
    hrole, and_imp, Document.delete, Document.script, forall_const]

theorem pairwise_delegators_iff {index : String} (delegations : Table Delegation) :
    (delegationDocuments index delegations).Pairwise Document.RespectedBy ↔
      delegations.values.Pairwise fun a b => a.isClosed = true → a.id ≠ b.id := by
  rw [delegationDocuments, List.pairwise_map]
  simp only [Document.RespectedBy, delegationDocument_delete_iff, id_delegationDocument]

end Indices

/-! ### All indices -/

theorem Digested.staysDeleted_documents_iff {d : Digested} {tokens : ResolvedTokens}
    {names : IndexNames} (hnames : names.toList.Nodup)
    (hholdings : (d.holdings.values.map (·.holdingId)).Nodup)
    (hitems : (tokens.removed.entries.map (·.identifier)).Nodup) :
    StaysDeleted (d.documents tokens names) ↔ d.DeletesLast tokens.removed := by
  rw [staysDeleted_iff_filter]
  constructor
  · intro h
    have hholding := h names.tokenAccounts
    have hitem := h names.tokens
    have hdelegation := h names.delegators
    rw [filter_documents_tokenAccounts hnames, pairwise_tokenAccounts_iff _ _ hholdings] at hholding
    rw [filter_documents_tokens hnames, pairwise_tokens_iff _ _ _ _ hitems] at hitem
    rw [filter_documents_delegators hnames, pairwise_delegators_iff] at hdelegation
    exact ⟨hholding, hitem, hdelegation⟩
  · intro h index
    by_cases hindex : index ∈ [names.tokenAccounts, names.delegators, names.tokens]
    · simp only [List.mem_cons, List.not_mem_nil, or_false] at hindex
      rcases hindex with rfl | rfl | rfl
      · rw [filter_documents_tokenAccounts hnames, pairwise_tokenAccounts_iff _ _ hholdings]
        exact h.holdings
      · rw [filter_documents_delegators hnames, pairwise_delegators_iff]
        exact h.delegations
      · rw [filter_documents_tokens hnames, pairwise_tokens_iff _ _ _ _ hitems]
        exact h.items
    · -- nothing is deleted from any other index
      refine List.pairwise_of_forall_mem_list fun e he _ _ hdelete => ?_
      obtain ⟨he, hin⟩ := List.mem_filter.mp he
      rw [beq_iff_eq.mp hin] at hindex
      exact absurd (index_mem_of_delete he hdelete) hindex

namespace Network

variable (n : Network) (importMode : Bool) (b : Block)

theorem nodup_holdingId_digest :
    ((n.digest importMode b).holdings.values.map (·.holdingId)).Nodup :=
  n.accountReader.nodup_holdingId _ _

/-- No two removed items of a block have one identifier. -/
theorem nodup_removed_digest :
    ((n.digest importMode b).findings.removed.entries.map (·.identifier)).Nodup := by
  have hreads : n.Reads b.stamp
      ⟨(n.settle b importMode).transactions, (n.settle b importMode).results, {}⟩ _ :=
    reads_readLogs _ b.logs
  -- reading starts with an empty registry, and no event removes an item without a name
  exact Registry.nodup_identifier (hreads.identifier_ne_empty fun t ht => nomatch ht)

end Network

/-- What a block deletes stays deleted if and only if nothing else that the block tells is for the
same identifier and written behind it. -/
theorem Indexer.staysDeleted_iff (x : Indexer) (hnames : x.names.toList.Nodup) {store : TokenStore}
    {b : Block} {docs : List Document} (hdocs : (x.process store b).result = .ok docs) :
    ∃ tokens, ((x.network.digest x.importMode b).resolve store x.names.tokens).result =
        .ok tokens ∧
      (StaysDeleted docs ↔ (x.network.digest x.importMode b).DeletesLast tokens.removed) := by
  obtain ⟨tokens, htokens, rfl⟩ := process_result_eq_ok_iff.mp hdocs
  obtain ⟨-, -, hremoved⟩ := Digested.resolve_result_eq_ok_iff.mp htokens
  refine ⟨tokens, htokens, Digested.staysDeleted_documents_iff hnames ?_ ?_⟩
  · exact x.network.nodup_holdingId_digest x.importMode b
  · rw [TokenStore.map_identifier_of_resolve hremoved]
    exact x.network.nodup_removed_digest x.importMode b

/-- A holder who changes an item and gives it away leaves a holding that is deleted and made
again. -/
theorem Indexer.staysDeleted_iff_of_emptied_holding :
    let holder : AlteredAccount :=
      { address := "00", tokens := [{ identifier := "A", nonce := 1, balance := "0" }] }
    let change : Event :=
      { address := [0], identifier := "ESDTNFTUpdateAttributes", topics := [[65], [1], [], []] }
    let b : Block :=
      { pool := some { logs := [⟨"01", ⟨[0], [change]⟩⟩] }, accounts := .ofList [("00", holder)] }
    ∃ docs, ((⟨default, false, {}⟩ : Indexer).process .empty b).result = .ok docs ∧
      ¬ StaysDeleted docs := by
  intro holder change b
  obtain ⟨docs, hdocs⟩ := exists_process_result ⟨default, false, {}⟩ (fun _ _ => ⟨[], rfl⟩) b
  obtain ⟨tokens, -, hiff⟩ := staysDeleted_iff ⟨default, false, {}⟩ (by decide) hdocs
  -- the holding is empty, and the change has its identifier
  refine ⟨docs, hdocs, fun hlasts => ?_⟩
  have hentries : holdingEntries b.accounts = [⟨holder, "A", 1, false, false⟩] := by
    show (List.mergeSort [holder] _).flatMap _ = _
    rw [List.mergeSort_singleton]
    rfl
  have hkey : (default : Network).addresses.decode "00" = .ok [0] := rfl
  obtain ⟨a, hrecord⟩ := (default : Network).accountReader.exists_holdingRecord? b.stamp
    (e := ⟨holder, "A", 1, false, false⟩) hkey
  obtain ⟨⟨haddress, hcollection, hnonce, hbalance⟩, -⟩ :=
    AccountReader.of_holdingRecord? hrecord
  have hheld : a ∈ ((default : Network).digest false b).holdings.values := by
    show a ∈ ((default : Network).accountReader.holdingTable b.stamp
      (holdingEntries b.accounts)).values
    rw [hentries, AccountReader.holdingTable, List.filterMap_cons, hrecord]
    exact List.mem_singleton_self a
  have hchanged : ⟨tokenIdentifier "A" 1, "00", .setAttributes []⟩ ∈
      ((default : Network).digest false b).findings.itemUpdates := List.mem_singleton_self _
  refine (hiff.mp hlasts).holdings a hheld ?_ _ hchanged rfl ?_
  · rw [hbalance]
    dsimp only [holder]
    rfl
  · rw [AccountRecord.holdingId_eq_of_item (by rw [hnonce]; decide), haddress, hcollection, hnonce]

end ChainIndex
