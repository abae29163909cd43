import ChainIndex.Indexer
import Mathlib.Data.List.Forall2
import Mathlib.Data.List.Nodup

/-!
# The documents of one index

The documents of a block are a sequence of sections, each for one index. What a block does to an
index can be read from the sections of that index alone (`Digested.filter_documents`), and all but
three of the indices never lose a document: deletions are found among holdings, removed items and
delegations only.

The code appends section after section to one buffer. Naming the sections in a list makes their
order a fact about a list, so a result about some of them is found by dropping and taking, and a
section that is added to the code is added in one place. There are two ways to speak of a part of
the documents. With names of indices that are distinct, it is what an index gets. Without that, it
is a run of sections with others around it, of which only the indices are told.
-/

namespace ChainIndex

/-! ### Place by place

What is written about records of one kind is stated as a relation between the list of the records
and that of their documents, so that neither a record nor a document can be left over. -/

/-- Two lists that are made of one list are related if what is made of each of its members is. -/
theorem forall₂_map_map {α β γ : Type} {R : β → γ → Prop} {f : α → β} {g : α → γ} {as : List α}
    (h : ∀ a ∈ as, R (f a) (g a)) : List.Forall₂ R (as.map f) (as.map g) :=
  List.forall₂_map_left_iff.mpr (List.forall₂_map_right_iff.mpr (List.forall₂_same.mpr h))

/-- What stands in one of two lists that are related place by place has a partner in the other. -/
theorem exists_mem_of_forall₂ {α β : Type} {R : α → β → Prop} {as : List α} {bs : List β}
    (h : List.Forall₂ R as bs) {a : α} (ha : a ∈ as) : ∃ b ∈ bs, R a b := by
  induction h with
  | nil => exact nomatch ha
  | cons hrelated _ ih =>
      rcases List.mem_cons.mp ha with rfl | ha
      · exact ⟨_, List.mem_cons_self, hrelated⟩
      · obtain ⟨b, hb, hrelated⟩ := ih ha
        exact ⟨b, List.mem_cons_of_mem _ hb, hrelated⟩

/-! ### The choices of the writers

Six functions read from a record which document it gets. Each of them is taken apart once, here,
into all that it can give. A property of its documents is then one of these forms, and a new branch
of a writer is a new case of its lemma. -/

section Writers

variable (index : String)

/-- The body of a transaction is put, or scripted so as to keep something of what is stored. -/
theorem Transaction.action_cases (self : UInt32) (t : Transaction) :
    t.action self = .put t.toJson ∨ ∃ kept, t.action self = .update (.replace kept) t.toJson := by
  unfold action
  split
  · split
    · exact .inr ⟨_, rfl⟩
    · exact .inr ⟨_, rfl⟩
  · split
    · exact .inr ⟨_, rfl⟩
    · split
      · exact .inr ⟨_, rfl⟩
      · exact .inl rfl

theorem FeeCorrection.script_cases (f : FeeCorrection) :
    f.script = .setFee f.fee f.feeNum f.gasUsed ∨
      f.script = .subtractRefund f.fee f.feeNum f.gasRefunded := by
  unfold script
  split
  · exact .inl rfl
  · exact .inr rfl

theorem AccountRecord.holdingDocument_cases (a : AccountRecord) :
    (isSomeBalance a.balance = true ∧ a.holdingDocument index = .put index a.holdingId a.toJson) ∨
      (isSomeBalance a.balance = false ∧ a.holdingDocument index = .delete index a.holdingId) := by
  unfold holdingDocument
  cases isSomeBalance a.balance with
  | true => exact .inl ⟨rfl, rfl⟩
  | false => exact .inr ⟨rfl, rfl⟩

theorem Delegation.document_cases (d : Delegation) :
    (d.isClosed = true ∧ d.document index = .delete index d.id) ∨
      (d.isClosed = false ∧ d.document index = .update index d.id d.script d.toJson) := by
  unfold document
  cases d.isClosed with
  | true => exact .inl ⟨rfl, rfl⟩
  | false => exact .inr ⟨rfl, rfl⟩

theorem Delegation.script_cases (d : Delegation) :
    (∃ u, d.unbonding = some u ∧
        d.script = .appendUnbonding d.stake d.stakeNum d.timestamp u) ∨
      (∃ ids, d.unbonding = none ∧ d.withdrawn = some ids ∧
        d.script = .removeWithdrawn d.stake d.stakeNum d.timestamp ids) ∨
      (d.unbonding = none ∧ d.withdrawn = none ∧
        d.script = .setStake d.stake d.stakeNum d.timestamp) := by
  unfold script
  cases d.unbonding with
  | some u => exact .inl ⟨u, rfl, rfl⟩
  | none =>
      cases d.withdrawn with
      | some ids => exact .inr (.inl ⟨ids, rfl, rfl, rfl⟩)
      | none => exact .inr (.inr ⟨rfl, rfl, rfl⟩)

theorem TokenRecord.issueDocument_cases (t : TokenRecord) :
    (∃ before, t.issueDocument index = .update index t.collection
        (.transferOwnership before t.currentOwner) t.toJson) ∨
      t.issueDocument index =
        .script index t.collection (.becomeDynamic t.type t.timestamp) ∨
      t.issueDocument index = .update index t.collection .replaceKeepingRoles t.toJson := by
  unfold issueDocument
  split
  · exact .inl ⟨_, rfl⟩
  · split
    · exact .inr (.inl rfl)
    · exact .inr (.inr rfl)

/-- The change itself is in the script. A body goes with it where the token may not be stored yet. -/
theorem RoleChange.document_cases (role : String) (c : RoleChange) :
    c.document index role = .update index c.token (.setRole role c.address c.granted)
        (.object [("roles", .object [(role, .strings [c.address])])]) ∨
      c.document index role = .script index c.token (.setRole role c.address c.granted) := by
  unfold document
  dsimp only
  split
  · exact .inl rfl
  · exact .inr rfl

end Writers

/-! ### Sections

Most sections map one function over their records, so a property of their documents is one of the
function. -/

/-- All documents are for one index. -/
def InIndex (index : String) (docs : List Document) : Prop :=
  ∀ d ∈ docs, d.index = index

/-- All documents are for one index, and none is a deletion. -/
def Writes (index : String) (docs : List Document) : Prop :=
  ∀ d ∈ docs, d.index = index ∧ d.action ≠ .delete

section

variable {α : Type} {index : String}

theorem Writes.inIndex {docs : List Document} (h : Writes index docs) : InIndex index docs :=
  fun d hd => (h d hd).1

theorem writes_map {as : List α} {f : α → Document}
    (h : ∀ a, (f a).index = index ∧ (f a).action ≠ .delete) : Writes index (as.map f) := by
  intro d hd
  obtain ⟨a, -, rfl⟩ := List.mem_map.mp hd
  exact h a

theorem Writes.append {docs docs' : List Document} (h : Writes index docs)
    (h' : Writes index docs') : Writes index (docs ++ docs') := by
  intro d hd
  rcases List.mem_append.mp hd with hd | hd
  · exact h d hd
  · exact h' d hd

theorem writes_put {id : String} {body : Json} :
    (Document.put index id body).index = index ∧ (Document.put index id body).action ≠ .delete :=
  ⟨rfl, nofun⟩

theorem writes_update {id : String} {script : UpdateScript} {body : Json} :
    (Document.update index id script body).index = index ∧
      (Document.update index id script body).action ≠ .delete :=
  ⟨rfl, nofun⟩

theorem writes_script {id : String} {script : UpdateScript} :
    (Document.script index id script).index = index ∧
      (Document.script index id script).action ≠ .delete :=
  ⟨rfl, nofun⟩

theorem writes_transactionDocuments (self : UInt32) (endings : Table Ending)
    (txs : List Transaction) : Writes index (transactionDocuments index self endings txs) := by
  refine Writes.append (writes_map fun t => ⟨rfl, ?_⟩) (writes_map fun _ => writes_update)
  show t.action self ≠ .delete
  obtain h | ⟨_, h⟩ := t.action_cases self <;> rw [h] <;> nofun

theorem writes_issueDocument (t : TokenRecord) :
    (t.issueDocument index).index = index ∧ (t.issueDocument index).action ≠ .delete := by
  obtain ⟨_, h⟩ | h | h := t.issueDocument_cases index <;> rw [h]
  · exact writes_update
  · exact writes_script
  · exact writes_update

theorem writes_tokenDocuments (issued : List TokenRecord) (updates : List ItemUpdate) :
    Writes index (tokenDocuments index issued updates) :=
  Writes.append (writes_map writes_issueDocument) (writes_map fun _ => writes_script)

theorem writes_roleDocuments (b : RoleBook) : Writes index (roleDocuments index b) := by
  refine Writes.append ?_ (writes_map fun _ => writes_script)
  intro d hd
  obtain ⟨e, -, hd⟩ := List.mem_flatMap.mp hd
  obtain ⟨c, -, rfl⟩ := List.mem_map.mp hd
  obtain h | h := c.document_cases index e.1 <;> rw [h]
  · exact writes_update
  · exact writes_script

theorem inIndex_holdingDocuments (holdings : Table AccountRecord) :
    InIndex index (holdingDocuments index holdings) := by
  intro d hd
  obtain ⟨a, -, rfl⟩ := List.mem_map.mp hd
  obtain ⟨-, h⟩ | ⟨-, h⟩ := a.holdingDocument_cases index <;> rw [h] <;> rfl

theorem inIndex_delegationDocuments (delegations : Table Delegation) :
    InIndex index (delegationDocuments index delegations) := by
  intro d hd
  obtain ⟨a, -, rfl⟩ := List.mem_map.mp hd
  obtain ⟨-, h⟩ | ⟨-, h⟩ := a.document_cases index <;> rw [h] <;> rfl

theorem inIndex_removalDocuments (removed : Registry) :
    InIndex index (removalDocuments index removed) := by
  intro d hd
  obtain ⟨t, -, rfl⟩ := List.mem_map.mp hd
  rfl

end

/-! ### The sections of a block -/

/-- The names of all indices. -/
def IndexNames.toList (names : IndexNames) : List String :=
  [names.transactions, names.results, names.receipts, names.accounts, names.accountsHistory,
    names.tokenAccounts, names.tokenAccountsHistory, names.tokens, names.esdts, names.deploys,
    names.delegators, names.logs, names.events, names.tags, names.operations]

/-- Where all names are distinct, no other index has the name of one. -/
theorem IndexNames.not_mem_eraseIdx {names : IndexNames} (hnames : names.toList.Nodup) {i : Nat}
    {name : String} (h : names.toList[i]? = some name) : name ∉ names.toList.eraseIdx i := by
  obtain ⟨hi, rfl⟩ := List.getElem?_eq_some_iff.mp h
  rw [List.eraseIdx_eq_take_drop_succ]
  refine (List.nodup_cons.mp (List.nodup_middle.mp ?_)).1
  rwa [List.getElem_cons_drop, List.take_append_drop]

namespace Digested

variable {d : Digested} {tokens : ResolvedTokens} {names : IndexNames}

/-- The documents of a block by section, each section with its index. -/
def sections (d : Digested) (tokens : ResolvedTokens) (names : IndexNames) :
    List (String × List Document) :=
  let f := d.findings
  [(names.transactions,
      transactionDocuments names.transactions d.stamp.shard f.endings d.settled.transactions),
    (names.operations,
      transactionDocuments names.operations d.stamp.shard f.endings d.operations),
    (names.operations, resultDocuments names.operations d.resultOperations),
    (names.transactions, feeDocuments names.transactions d.settled.fees),
    (names.operations, feeDocuments names.operations d.settled.fees),
    (names.tokens, createdDocuments names.tokens tokens.created),
    (names.logs, logDocuments names.logs d.logs),
    (names.events, eventDocuments names.events d.events),
    (names.results, resultDocuments names.results d.settled.results),
    (names.receipts, receiptDocuments names.receipts d.settled.receipts),
    (names.accounts, accountDocuments names.accounts d.accounts),
    (names.accountsHistory, snapshotDocuments names.accountsHistory d.accountHistory),
    (names.tokenAccounts,
      holdingDocuments names.tokenAccounts (d.holdings.map fun _ a => a.typedBy tokens.held)),
    (names.tokenAccounts, heldItemDocuments names.tokenAccounts f.itemUpdates),
    (names.tokenAccountsHistory,
      snapshotDocuments names.tokenAccountsHistory d.holdingHistory),
    (names.tags, tagDocuments names.tags d.tags),
    (names.esdts, tokenDocuments names.esdts f.issued f.itemUpdates),
    (names.tokens, tokenDocuments names.tokens f.issued f.itemUpdates),
    (names.delegators, delegationDocuments names.delegators f.delegations),
    (names.tokens, removalDocuments names.tokens tokens.removed),
    (names.tokens, roleDocuments names.tokens f.roleBook),
    (names.esdts, roleDocuments names.esdts f.roleBook),
    (names.deploys, deploymentDocuments names.deploys f.deployments),
    (names.deploys, ownerDocuments names.deploys f.owners)]

/-- The documents of a block are those of its sections, one after another. -/
theorem documents_eq_flatMap (d : Digested) (tokens : ResolvedTokens) (names : IndexNames) :
    d.documents tokens names = (d.sections tokens names).flatMap Prod.snd := by
  simp only [documents, recordDocuments, logAndResultDocuments, accountAndHoldingDocuments,
    findingDocuments, sections, List.flatMap_cons, List.flatMap_nil, List.append_assoc,
    List.append_nil]

/-- A section is for one index, and deletes nothing unless it is about holdings, delegations or
removed items. -/
theorem inIndex_or_writes_of_mem_sections :
    ∀ s ∈ d.sections tokens names, Writes s.1 s.2 ∨
      (InIndex s.1 s.2 ∧
        s.1 ∈ [names.tokenAccounts, names.delegators, names.tokens]) := by
  simp only [sections, List.forall_mem_cons, List.not_mem_nil, IsEmpty.forall_iff,
    implies_true, and_true]
  exact
    ⟨.inl (writes_transactionDocuments _ _ _), .inl (writes_transactionDocuments _ _ _),
      .inl (writes_map fun _ => writes_put), .inl (writes_map fun _ => writes_script),
      .inl (writes_map fun _ => writes_script), .inl (writes_map fun _ => writes_put),
      .inl (writes_map fun _ => writes_update), .inl (writes_map fun _ => writes_update),
      .inl (writes_map fun _ => writes_put), .inl (writes_map fun _ => writes_put),
      .inl (writes_map fun _ => writes_put), .inl (writes_map fun _ => writes_put),
      .inr ⟨inIndex_holdingDocuments _, by simp⟩, .inl (writes_map fun _ => writes_script),
      .inl (writes_map fun _ => writes_put), .inl (writes_map fun _ => writes_update),
      .inl (writes_tokenDocuments _ _), .inl (writes_tokenDocuments _ _),
      .inr ⟨inIndex_delegationDocuments _, by simp⟩, .inr ⟨inIndex_removalDocuments _, by simp⟩,
      .inl (writes_roleDocuments _), .inl (writes_roleDocuments _),
      .inl (writes_map fun _ => writes_update), .inl (writes_map fun _ => writes_script)⟩

/-- The documents of a section are for its index. -/
theorem index_eq_of_mem_sections {s : String × List Document} (hs : s ∈ d.sections tokens names)
    {e : Document} (he : e ∈ s.2) : e.index = s.1 :=
  (inIndex_or_writes_of_mem_sections s hs).elim (fun h => h.inIndex e he) fun h => h.1 e he

/-- Sections in a row stand together among the documents, and what stands around them is for the
indices of the other sections. -/
theorem documents_eq_around (d : Digested) (tokens : ResolvedTokens) (names : IndexNames)
    (i k : Nat) {indices : List String}
    (hindices : ∀ s ∈ (d.sections tokens names).take i ++ (d.sections tokens names).drop (i + k),
      s.1 ∈ indices) :
    ∃ before after,
      d.documents tokens names =
        before ++ (((d.sections tokens names).drop i).take k).flatMap Prod.snd ++ after ∧
      ∀ e ∈ before ++ after, e.index ∈ indices := by
  set ss := d.sections tokens names with hss
  refine ⟨(ss.take i).flatMap Prod.snd, (ss.drop (i + k)).flatMap Prod.snd, ?_, ?_⟩
  · rw [documents_eq_flatMap, ← List.flatMap_append, ← List.flatMap_append, ← List.drop_drop,
      List.append_assoc, List.take_append_drop, List.take_append_drop]
  · intro e he
    rw [← List.flatMap_append] at he
    obtain ⟨s, hs, he⟩ := List.mem_flatMap.mp he
    have hsection : s ∈ ss :=
      (List.mem_append.mp hs).elim List.mem_of_mem_take List.mem_of_mem_drop
    rw [index_eq_of_mem_sections hsection he]
    exact hindices s hs

theorem filter_flatMap_of_inIndex {index : String} {ss : List (String × List Document)}
    (h : ∀ s ∈ ss, InIndex s.1 s.2) :
    (ss.flatMap Prod.snd).filter (fun e => index == e.index) =
      (ss.filter fun s => index == s.1).flatMap Prod.snd := by
  induction ss with
  | nil => rfl
  | cons s rest ih =>
      rw [List.forall_mem_cons] at h
      rw [List.flatMap_cons, List.filter_append, ih h.2]
      -- a section is kept or left out as a whole
      by_cases hs : index = s.1
      · rw [List.filter_cons_of_pos (by simpa using hs), List.flatMap_cons, List.filter_eq_self.mpr]
        intro e he
        rw [h.1 e he]
        simpa using hs
      · rw [List.filter_cons_of_neg (by simpa using hs), List.filter_eq_nil_iff.mpr,
          List.nil_append]
        intro e he
        rw [h.1 e he]
        simpa using hs

/-- The documents for one index are those of its sections. -/
theorem filter_documents (d : Digested) (tokens : ResolvedTokens) (names : IndexNames)
    (index : String) :
    (d.documents tokens names).filter (fun e => index == e.index) =
      ((d.sections tokens names).filter fun s => index == s.1).flatMap Prod.snd := by
  rw [documents_eq_flatMap, filter_flatMap_of_inIndex]
  exact fun s hs e he => index_eq_of_mem_sections hs he

/-- Only holdings, delegations and removed items are deleted. -/
theorem index_mem_of_delete {e : Document} (he : e ∈ d.documents tokens names)
    (hdelete : e.action = .delete) :
    e.index ∈ [names.tokenAccounts, names.delegators, names.tokens] := by
  rw [documents_eq_flatMap] at he
  obtain ⟨s, hs, he⟩ := List.mem_flatMap.mp he
  rcases inIndex_or_writes_of_mem_sections s hs with hwrites | ⟨hindex, hmem⟩
  · exact absurd hdelete (hwrites e he).2
  · rw [hindex e he]
    exact hmem

/-! With distinct names the sections of an index are found by comparing names, which `simp` does
once it knows that the name of the index differs from all others. -/

section Distinct

variable (hnames : names.toList.Nodup)
include hnames

theorem filter_documents_tokenAccounts :
    (d.documents tokens names).filter (fun e => names.tokenAccounts == e.index) =
      holdingDocuments names.tokenAccounts (d.holdings.map fun _ a => a.typedBy tokens.held) ++
        heldItemDocuments names.tokenAccounts d.findings.itemUpdates := by
  have hne := IndexNames.not_mem_eraseIdx hnames
    (show _[5]? = some names.tokenAccounts from rfl)
  simp only [IndexNames.toList, List.eraseIdx, List.mem_cons, List.not_mem_nil, not_or] at hne
  rw [filter_documents]
  simp [sections, hne]

theorem filter_documents_delegators :
    (d.documents tokens names).filter (fun e => names.delegators == e.index) =
      delegationDocuments names.delegators d.findings.delegations := by
  have hne := IndexNames.not_mem_eraseIdx hnames
    (show _[10]? = some names.delegators from rfl)
  simp only [IndexNames.toList, List.eraseIdx, List.mem_cons, List.not_mem_nil, not_or] at hne
  rw [filter_documents]
  simp [sections, hne]

theorem filter_documents_tags :
    (d.documents tokens names).filter (fun e => names.tags == e.index) =
      tagDocuments names.tags d.tags := by
  have hne := IndexNames.not_mem_eraseIdx hnames
    (show _[13]? = some names.tags from rfl)
  simp only [IndexNames.toList, List.eraseIdx, List.mem_cons, List.not_mem_nil, not_or] at hne
  rw [filter_documents]
  simp [sections, hne]

theorem filter_documents_tokens :
    (d.documents tokens names).filter (fun e => names.tokens == e.index) =
      createdDocuments names.tokens tokens.created ++
        (tokenDocuments names.tokens d.findings.issued d.findings.itemUpdates ++
          (removalDocuments names.tokens tokens.removed ++
            roleDocuments names.tokens d.findings.roleBook)) := by
  have hne := IndexNames.not_mem_eraseIdx hnames
    (show _[7]? = some names.tokens from rfl)
  simp only [IndexNames.toList, List.eraseIdx, List.mem_cons, List.not_mem_nil, not_or] at hne
  rw [filter_documents]
  simp [sections, hne]

end Distinct

end Digested

end ChainIndex
