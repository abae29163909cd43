import ChainIndex.Proofs.Search.Operations

/-!
# What import mode keeps

In import mode a block is to leave behind only what arrives in its shard. Among the documents those
that show where a record goes are those of transactions, of results and of operations. Of them
transactions arrive, unless they are invalid, and so do all operations; but every result of the pool
is written, wherever it goes (`Indexer.yields_keepsArrivals`).

A document shows a shard if its body has a member of one name, so the statement is about all
documents and not only about those of records. For most sections it is enough that none of their
bodies has such a member. The sections that are left repeat the records of the block, and where
these go is known from the miniblock that lists them: transactions are grouped by a rule that looks
at import mode, results come from the pool by one that does not. Operations are filtered once more,
so what is true of results stops at their own index.
-/

namespace ChainIndex

/-! ### Where records go -/

/-- The last miniblock that lists a transaction lists it as an invalid one, on its way to a
shard. -/
def Network.ListsInvalid (n : Network) (b : Block) (hash : String) (shard : UInt32) : Prop :=
  ∃ h t p, b.header = some h ∧ n.ComesFrom h true b t p ∧ t.hash = hash ∧
    p.1.type = .invalid ∧ p.1.receiverShard = shard

/-- A result of the pool has its place in miniblocks on their way to a shard, or in none. -/
def Block.SendsResult (b : Block) (hash : String) (shard : UInt32) : Prop :=
  ∃ h pool entry, b.header = some h ∧ b.pool = some pool ∧ pool.results.get? hash = some entry ∧
    (resultPlace h.shard b.miniBlocks hash).receiverShard = shard

/-- If a document shows where a record goes, that is the shard of the block, or the document is one
of an invalid transaction or of a result in the index of these. -/
def Document.Arrives (n : Network) (names : IndexNames) (b : Block) (d : Document) : Prop :=
  ∀ shard, d.receiverShard? = some shard →
    shard = b.shard ∨
      (d.index = names.transactions ∧ n.ListsInvalid b d.id shard) ∨
      (d.index = names.results ∧ b.SendsResult d.id shard)

/-- What the documents of a block in import mode show of the shards that records go to. -/
structure KeepsArrivals (n : Network) (names : IndexNames) (b : Block) (docs : List Document) :
    Prop where
  arrives : ∀ d ∈ docs, d.Arrives n names b
  /-- Every transaction that is left is written, and its document shows where it goes. -/
  transactions : ∀ t ∈ (n.settle b true).transactions,
    ∃ d ∈ docs, d.index = names.transactions ∧ d.id = t.hash ∧
      d.receiverShard? = some t.receiverShard
  /-- Every result is written, wherever it goes. -/
  results : ∀ hash shard, b.SendsResult hash shard →
    ∃ d ∈ docs, d.index = names.results ∧ d.id = hash ∧ d.receiverShard? = some shard

/-! ### Documents that show no shard

A body may gain members without harm, as long as none of them has the name of the receiving shard.
The lists of members are computed by `simp`, so these proofs do not name them. -/

/-- No document shows where a record goes. -/
def ShowsNoShard (docs : List Document) : Prop :=
  ∀ d ∈ docs, d.receiverShard? = none

theorem AccountRecord.avoids_receiverShard (a : AccountRecord) :
    Json.Avoids ["receiverShard"] a.toJson.membersOf := by
  unfold toJson
  cases a.metadata <;> simp [Json.membersOf]

theorem BalanceSnapshot.avoids_receiverShard (s : BalanceSnapshot) :
    Json.Avoids ["receiverShard"] s.toJson.membersOf := by
  simp [toJson, Json.membersOf]

theorem TokenRecord.avoids_receiverShard (t : TokenRecord) :
    Json.Avoids ["receiverShard"] t.toJson.membersOf := by
  unfold toJson
  cases t.metadata <;> cases t.properties <;> simp [Json.membersOf]

theorem LogRecord.avoids_receiverShard (l : LogRecord) :
    Json.Avoids ["receiverShard"] l.toJson.membersOf := by
  simp [toJson, Json.membersOf]

theorem IndexedEvent.avoids_receiverShard (e : IndexedEvent) :
    Json.Avoids ["receiverShard"] e.toJson.membersOf := by
  simp [toJson, Json.membersOf]

theorem Receipt.avoids_receiverShard (r : Receipt) :
    Json.Avoids ["receiverShard"] r.toJson.membersOf := by
  simp [toJson, Json.membersOf]

theorem Deployment.avoids_receiverShard (d : Deployment) :
    Json.Avoids ["receiverShard"] d.toJson.membersOf := by
  simp [toJson, Json.membersOf]

theorem Delegation.avoids_receiverShard (d : Delegation) :
    Json.Avoids ["receiverShard"] d.toJson.membersOf := by
  simp [toJson, Json.membersOf]

section

variable {index : String}

theorem showsNoShard_map {α : Type} {as : List α} {f : α → Document}
    (h : ∀ a, (f a).receiverShard? = none) : ShowsNoShard (as.map f) :=
  List.forall_mem_map.mpr fun a _ => h a

theorem receiverShard?_of_avoids {id : String} {action : Action} {body : Json}
    (hbody : action.body? = some body) (h : Json.Avoids ["receiverShard"] body.membersOf) :
    (⟨index, id, action⟩ : Document).receiverShard? = none := by
  rw [Document.receiverShard?, Document.member?, hbody, Option.bind_some,
    Json.lookup_of_avoids h, Option.bind_none]

theorem showsNoShard_endingDocuments (endings : Table Ending) :
    ShowsNoShard (endingDocuments index endings) := by
  intro d hd
  rw [Document.receiverShard?, (member?_endingDocuments hd).1, Option.bind_none]

theorem showsNoShard_feeDocuments (fees : Table FeeCorrection) :
    ShowsNoShard (feeDocuments index fees) := by
  intro d hd
  rw [Document.receiverShard?, (member?_feeDocuments hd).1, Option.bind_none]

theorem showsNoShard_holdingDocuments (holdings : Table AccountRecord) :
    ShowsNoShard (holdingDocuments index holdings) := by
  refine showsNoShard_map fun a => ?_
  obtain ⟨-, h⟩ | ⟨-, h⟩ := a.holdingDocument_cases index <;> rw [h]
  · exact receiverShard?_of_avoids rfl a.avoids_receiverShard
  · rfl

theorem showsNoShard_delegationDocuments (delegations : Table Delegation) :
    ShowsNoShard (delegationDocuments index delegations) := by
  refine showsNoShard_map fun d => ?_
  obtain ⟨-, h⟩ | ⟨-, h⟩ := d.document_cases index <;> rw [h]
  · rfl
  · exact receiverShard?_of_avoids rfl d.avoids_receiverShard

theorem showsNoShard_tokenDocuments (issued : List TokenRecord) (updates : List ItemUpdate) :
    ShowsNoShard (tokenDocuments index issued updates) := by
  refine List.forall_mem_append.mpr ⟨showsNoShard_map fun t => ?_, showsNoShard_map fun _ => rfl⟩
  obtain ⟨_, h⟩ | h | h := t.issueDocument_cases index <;> rw [h]
  · exact receiverShard?_of_avoids rfl t.avoids_receiverShard
  · rfl
  · exact receiverShard?_of_avoids rfl t.avoids_receiverShard

theorem showsNoShard_roleDocuments (b : RoleBook) : ShowsNoShard (roleDocuments index b) := by
  refine List.forall_mem_append.mpr ⟨List.forall_mem_flatMap.mpr fun e _ => ?_,
    showsNoShard_map fun _ => rfl⟩
  refine showsNoShard_map fun c => ?_
  obtain h | h := c.document_cases index e.1 <;> rw [h] <;> rfl

end

/-! ### Documents of records

What settles a block decides where its records go, and reading logs does not change that. So records
that are left after reading are traced back to those that were settled. -/

namespace Network

variable {n : Network} {h : Header} {b : Block}

/-- A transaction goes to the shard of the block unless it is invalid. -/
theorem receiverShard_of_mem_digest (hh : b.header = some h) (hshard : h.shard = b.shard)
    {t : Transaction} (ht : t ∈ (n.digest true b).settled.transactions) :
    t.receiverShard = b.shard ∨ n.ListsInvalid b t.hash t.receiverShard := by
  obtain ⟨u, hu, heq⟩ := exists_mem_of_map_eq (n.map_unread_digest true b) ht
  obtain ⟨p, hp⟩ := exists_comesFrom hh hu
  have hreceiver : u.receiverShard = t.receiverShard :=
    (congrArg Transaction.receiverShard heq :)
  have hhash : u.hash = t.hash :=
    (congrArg Transaction.hash heq :)
  rw [← hreceiver, hp.receiverShard_eq, ← hshard]
  rcases hp.kind with ⟨-, harrives⟩ | hinvalid
  · exact .inl (harrives rfl)
  · exact .inr ⟨h, u, p, hh, hp, hhash, hinvalid, rfl⟩

/-- The results of a block are those of the pool, where these are sent. -/
theorem sendsResult_iff {importMode : Bool} {hash : String} {shard : UInt32} :
    b.SendsResult hash shard ↔
      ∃ r ∈ (n.digest importMode b).settled.results, r.hash = hash ∧ r.receiverShard = shard := by
  have hunread := n.map_unread_results_digest importMode b
  constructor
  · rintro ⟨h, pool, entry, hh, hpool, hentry, hplace⟩
    obtain ⟨r, hr, heq⟩ := exists_mem_of_map_eq hunread.symm
      (mem_settle_results.mpr ⟨h, pool, hash, entry, hh, hpool, hentry, rfl⟩)
    have hhash : r.hash = hash :=
      (congrArg ContractResult.hash heq :)
    have hreceiver : r.receiverShard = (resultPlace h.shard b.miniBlocks hash).receiverShard :=
      (congrArg ContractResult.receiverShard heq :)
    exact ⟨r, hr, hhash, hreceiver.trans hplace⟩
  · rintro ⟨r, hr, rfl, rfl⟩
    obtain ⟨u, hu, heq⟩ := exists_mem_of_map_eq hunread hr
    obtain ⟨h, pool, key, entry, hh, hpool, hentry, rfl⟩ := mem_settle_results.mp hu
    have hhash : key = r.hash :=
      (congrArg ContractResult.hash heq :)
    have hreceiver : (resultPlace h.shard b.miniBlocks key).receiverShard = r.receiverShard :=
      (congrArg ContractResult.receiverShard heq :)
    rw [← hhash, ← hreceiver]
    exact ⟨h, pool, entry, hh, hpool, hentry, rfl⟩

end Network

section

variable {n : Network} {names : IndexNames} {b : Block}

theorem ShowsNoShard.arrives {docs : List Document} (h : ShowsNoShard docs) :
    ∀ d ∈ docs, d.Arrives n names b := by
  intro d hd shard hshard
  rw [h d hd] at hshard
  cases hshard

/-- What arrives in the shard of the block may stand in any index. -/
theorem arrives_document {index : String} {self : UInt32} {t : Transaction}
    (h : t.receiverShard = b.shard ∨
      index = names.transactions ∧ n.ListsInvalid b t.hash t.receiverShard) :
    (t.document index self).Arrives n names b := by
  intro shard hshard
  rw [receiverShard?_document, Option.some.injEq] at hshard
  rw [← hshard]
  exact h.imp_right .inl

theorem arrives_put {index : String} {r : ContractResult}
    (h : r.receiverShard = b.shard ∨
      index = names.results ∧ b.SendsResult r.hash r.receiverShard) :
    (Document.put index r.hash r.toJson).Arrives n names b := by
  intro shard hshard
  rw [receiverShard?_put, Option.some.injEq] at hshard
  rw [← hshard]
  exact h.imp_right .inr

theorem arrives_transactionDocuments {index : String} {self : UInt32} {txs : List Transaction}
    (h : ∀ t ∈ txs, t.receiverShard = b.shard ∨
      index = names.transactions ∧ n.ListsInvalid b t.hash t.receiverShard)
    (endings : Table Ending) :
    ∀ d ∈ transactionDocuments index self endings txs, d.Arrives n names b :=
  List.forall_mem_append.mpr ⟨List.forall_mem_map.mpr fun t ht => arrives_document (h t ht),
    (showsNoShard_endingDocuments endings).arrives⟩

theorem arrives_resultDocuments {index : String} {results : List ContractResult}
    (h : ∀ r ∈ results, r.receiverShard = b.shard ∨
      index = names.results ∧ b.SendsResult r.hash r.receiverShard) :
    ∀ d ∈ resultDocuments index results, d.Arrives n names b :=
  List.forall_mem_map.mpr fun r hr => arrives_put (h r hr)

/-- The documents of a section are documents of the block. -/
theorem Digested.mem_documents {d : Digested} {tokens : ResolvedTokens} {i : Nat}
    {s : String × List Document} (hs : (d.sections tokens names)[i]? = some s) {e : Document}
    (he : e ∈ s.2) : e ∈ d.documents tokens names := by
  rw [documents_eq_flatMap]
  exact List.mem_flatMap.mpr ⟨s, List.mem_of_getElem? hs, he⟩

/-! ### Main result -/

/-- In import mode every section keeps to the shard of the block, but for invalid transactions and
for results. -/
theorem Network.arrives_of_mem_sections {h : Header} (hh : b.header = some h)
    (hshard : h.shard = b.shard) (tokens : ResolvedTokens) :
    ∀ s ∈ (n.digest true b).sections tokens names, ∀ d ∈ s.2, d.Arrives n names b := by
  have htxs : ∀ t ∈ (n.digest true b).settled.transactions, t.receiverShard = b.shard ∨
      names.transactions = names.transactions ∧ n.ListsInvalid b t.hash t.receiverShard :=
    fun t ht => (receiverShard_of_mem_digest hh hshard ht).imp_right fun hinvalid => ⟨rfl, hinvalid⟩
  have hresults : ∀ r ∈ (n.digest true b).settled.results, r.receiverShard = b.shard ∨
      names.results = names.results ∧ b.SendsResult r.hash r.receiverShard :=
    fun r hr => .inr ⟨rfl, sendsResult_iff.mpr ⟨r, hr, rfl, rfl⟩⟩
  -- operations are filtered once more, so that not even invalid transactions are left
  have hoperations : ∀ t ∈ (n.digest true b).operations, t.receiverShard = b.shard := by
    intro t ht
    obtain ⟨u, hu, rfl⟩ := List.mem_map.mp ht
    exact isIndexed_eq_true_iff.mp (List.mem_filter.mp hu).2 rfl
  have hresultOperations : ∀ r ∈ (n.digest true b).resultOperations,
      r.receiverShard = b.shard := by
    intro r hr
    obtain ⟨u, hu, rfl⟩ := List.mem_map.mp hr
    exact isIndexed_eq_true_iff.mp (List.mem_filter.mp hu).2 rfl
  simp only [Digested.sections, List.forall_mem_cons, List.not_mem_nil, IsEmpty.forall_iff,
    implies_true, and_true]
  exact
    ⟨arrives_transactionDocuments htxs _,
      arrives_transactionDocuments (fun t ht => .inl (hoperations t ht)) _,
      arrives_resultDocuments fun r hr => .inl (hresultOperations r hr),
      (showsNoShard_feeDocuments _).arrives, (showsNoShard_feeDocuments _).arrives,
      (showsNoShard_map fun t => receiverShard?_of_avoids rfl t.avoids_receiverShard).arrives,
      (showsNoShard_map fun l => receiverShard?_of_avoids rfl l.avoids_receiverShard).arrives,
      (showsNoShard_map fun e => receiverShard?_of_avoids rfl e.avoids_receiverShard).arrives,
      arrives_resultDocuments hresults,
      (showsNoShard_map fun r => receiverShard?_of_avoids rfl r.avoids_receiverShard).arrives,
      (showsNoShard_map fun a => receiverShard?_of_avoids rfl a.avoids_receiverShard).arrives,
      (showsNoShard_map fun s => receiverShard?_of_avoids rfl s.avoids_receiverShard).arrives,
      (showsNoShard_holdingDocuments _).arrives, (showsNoShard_map fun _ => rfl).arrives,
      (showsNoShard_map fun s => receiverShard?_of_avoids rfl s.avoids_receiverShard).arrives,
      (showsNoShard_map fun _ => rfl).arrives, (showsNoShard_tokenDocuments _ _).arrives,
      (showsNoShard_tokenDocuments _ _).arrives, (showsNoShard_delegationDocuments _).arrives,
      (showsNoShard_map fun _ => rfl).arrives, (showsNoShard_roleDocuments _).arrives,
      (showsNoShard_roleDocuments _).arrives,
      (showsNoShard_map fun d => receiverShard?_of_avoids rfl d.2.avoids_receiverShard).arrives,
      (showsNoShard_map fun _ => rfl).arrives⟩

end

/-- In import mode the documents of a block show only records that arrive in its shard, but for
invalid transactions, and for results: all of these are written, wherever they go. -/
theorem Indexer.yields_keepsArrivals (x : Indexer) (himport : x.importMode = true)
    (store : TokenStore) {b : Block} {h : Header} (hh : b.header = some h)
    (hshard : h.shard = b.shard) :
    x.Yields store b (KeepsArrivals x.network x.names b) := by
  refine yields_of_documents fun tokens _ => ?_
  rw [himport]
  constructor
  case arrives =>
    intro d hd
    rw [Digested.documents_eq_flatMap] at hd
    obtain ⟨s, hs, hd⟩ := List.mem_flatMap.mp hd
    exact Network.arrives_of_mem_sections hh hshard tokens s hs d hd
  case transactions =>
    intro t ht
    obtain ⟨u, hu, heq⟩ := exists_mem_of_map_eq (x.network.map_unread_digest true b).symm ht
    have hhash : u.hash = t.hash :=
      (congrArg Transaction.hash heq :)
    have hreceiver : u.receiverShard = t.receiverShard :=
      (congrArg Transaction.receiverShard heq :)
    refine ⟨u.document x.names.transactions b.shard, ?_, rfl, hhash, ?_⟩
    · exact Digested.mem_documents (i := 0) rfl
        (List.mem_append_left _ (List.mem_map_of_mem hu))
    · rw [receiverShard?_document, hreceiver]
  case results =>
    intro hash shard hsends
    obtain ⟨r, hr, rfl, rfl⟩ := Network.sendsResult_iff.mp hsends
    refine ⟨.put x.names.results r.hash r.toJson, ?_, rfl, rfl, receiverShard?_put r⟩
    exact Digested.mem_documents (i := 8) rfl (List.mem_map_of_mem hr)

/-- A result on its way to another shard: import mode writes it all the same. -/
theorem Indexer.yields_keepsArrivals_of_sent_result :
    let b : Block :=
      { header := some {}
        miniBlocks := [⟨.results, 0, 1, [[1]]⟩]
        pool := some { results := .ofList [("01", {})] } }
    let x : Indexer := ⟨default, true, {}⟩
    x.importMode = true ∧ b.header = some {} ∧ ({} : Header).shard = b.shard ∧
      ∃ docs, (x.process .empty b).result = .ok docs ∧ KeepsArrivals default {} b docs ∧
        ∃ d ∈ docs, d.index = x.names.results ∧ d.id = "01" ∧ d.receiverShard? = some 1 := by
  intro b x
  obtain ⟨docs, hdocs⟩ := exists_process_result x (fun _ _ => ⟨[], rfl⟩) b
  have hkeeps := (yields_keepsArrivals x rfl .empty (h := {}) rfl rfl).of_result hdocs
  have hsends : b.SendsResult "01" 1 :=
    ⟨{}, { results := .ofList [("01", {})] }, {}, rfl, rfl, by decide, by decide⟩
  exact ⟨rfl, rfl, rfl, docs, hdocs, hkeeps, hkeeps.results _ _ hsends⟩

end ChainIndex
