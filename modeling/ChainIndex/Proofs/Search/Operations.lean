import ChainIndex.Proofs.Events.Reading
import ChainIndex.Proofs.Json.Record
import ChainIndex.Proofs.Operations
import ChainIndex.Proofs.Search.Endings
import ChainIndex.Proofs.Settlement.Origin
import Mathlib.Data.List.Forall2

/-!
# The operations index mirrors two others

The index of operations repeats what the indices of transactions and of results are told, document
by document and in the same order (`Indexer.yields_operations`). Import mode leaves out what arrives
in other shards. What an operation shows more than its record is added to the body; identifiers,
scripts and whatever goes with a script are the same.

Documents of results and of transactions are mixed up in the index of operations, so they are told
apart there by the type that a body shows, and the two lists are compared place by place with what
the other two indices get. All filters look at bodies: which documents are wanted, and which are
results. So the proof first says what the bodies of each section show, then how a document is
repeated, and the sections are compared one by one. That an operation only gains members holds
because its record has neither a type nor a status of its own, which is a fact about settling and
not about writing (`Network.type_of_mem_digest`, `Network.plain_of_mem_digest`).
-/

namespace ChainIndex

/-! ### Documents that repeat others -/

/-- The body that goes with an action. -/
def Action.body? : Action → Option Json
  | .put body => some body
  | .update _ body => some body
  | .delete => none

/-- Two actions do the same, but the body of the second one has some members more. -/
inductive Action.Adds (added : List (String × Json)) : Action → Action → Prop
  | put {body body' : Json} (h : body.Adds added body') : Adds added (.put body) (.put body')
  | update (script : UpdateScript) {body body' : Json} (h : body.Adds added body') :
      Adds added (.update script body) (.update script body')

namespace Document

/-- A member of the body of a document. -/
def member? (name : String) (d : Document) : Option Json :=
  d.action.body?.bind fun body => Json.lookup name body.membersOf

/-- The shard that the record of a document goes to, if the body shows one. -/
def receiverShard? (d : Document) : Option UInt32 :=
  (d.member? "receiverShard").bind Json.uint32?

/-- Whether the record of a document arrives in a shard, where import mode asks for that. A document
without a record is always wanted. -/
def isWanted (importMode : Bool) (self : UInt32) (d : Document) : Bool :=
  d.receiverShard?.all (isIndexed importMode self)

/-- Whether a document shows a result as an operation. -/
def isResultOperation (d : Document) : Bool :=
  (d.member? "type").bind Json.string? == some "unsigned"

/-- Whether a document corrects what a transaction has cost. -/
def correctsFee (d : Document) : Bool :=
  match d.action with
  | .update (.setFee ..) _ => true
  | .update (.subtractRefund ..) _ => true
  | _ => false

/-- A document stands in another index with some members added to its body. -/
structure Repeats (index : String) (added : List (String × Json)) (d o : Document) : Prop where
  index_eq : o.index = index
  id_eq : o.id = d.id
  action : d.action.Adds added o.action

/-- A document about a transaction stands among the operations. The body of a record gets a type. -/
def RepeatsTransaction (index : String) (d o : Document) : Prop :=
  d.Repeats index (if d.receiverShard?.isSome then [("type", .string "normal")] else []) o

/-- The document of a result stands among the operations. Its body gets a type, the status that a
shard sees, and at most a mark. -/
def RepeatsResult (index : String) (self : UInt32) (d o : Document) : Prop :=
  ∃ receiver ignored, d.receiverShard? = some receiver ∧
    d.Repeats index (ContractResult.operationMembers self receiver ignored) o

end Document

/-- Documents of transactions come first, then those about ends, then those about costs. -/
def InOrderOfKinds (docs : List Document) : Prop :=
  ∃ records endings fees, docs = records ++ (endings ++ fees) ∧
    (∀ d ∈ records, d.receiverShard?.isSome = true) ∧
    (∀ d ∈ endings, d.mergesEnding = true) ∧ ∀ d ∈ fees, d.correctsFee = true

/-- The documents for one index, in their order. -/
def documentsIn (index : String) (docs : List Document) : List Document :=
  docs.filter fun d => index == d.index

/-- The operations repeat the wanted documents of transactions and those of results, each in their
order. -/
structure MirrorsOperations (names : IndexNames) (importMode : Bool) (self : UInt32)
    (docs : List Document) : Prop where
  kinds : InOrderOfKinds (documentsIn names.transactions docs)
  transactions : List.Forall₂ (Document.RepeatsTransaction names.operations)
    ((documentsIn names.transactions docs).filter (·.isWanted importMode self))
    ((documentsIn names.operations docs).filter fun d => !d.isResultOperation)
  results : List.Forall₂ (Document.RepeatsResult names.operations self)
    ((documentsIn names.results docs).filter (·.isWanted importMode self))
    ((documentsIn names.operations docs).filter (·.isResultOperation))

/-! ### What documents show of their records -/

section

variable {index : String}

theorem member?_document (name : String) (self : UInt32) (t : Transaction) :
    (t.document index self).member? name = Json.lookup name t.toJson.membersOf := by
  unfold Document.member? Transaction.document
  dsimp only
  obtain h | ⟨_, h⟩ := t.action_cases self <;> rw [h] <;> rfl

theorem receiverShard?_document (self : UInt32) (t : Transaction) :
    (t.document index self).receiverShard? = some t.receiverShard := by
  have hlookup : Json.lookup "receiverShard" t.toJson.membersOf =
      some (.uint32 t.receiverShard) := by
    simp [Transaction.toJson, Json.membersOf, Transaction.membersBefore, Json.lookup]
  rw [Document.receiverShard?, member?_document, hlookup, Option.bind_some, Json.uint32?_uint32]

/-- A transaction never looks like a result, not even as an operation. -/
theorem isResultOperation_document (self : UInt32) {t : Transaction} (h : t.type ≠ "unsigned") :
    (t.document index self).isResultOperation = false := by
  have hlookup : Json.lookup "type" t.toJson.membersOf =
      (Json.textMember? t.type).or (Json.lookup "type" t.membersBehindType) := by
    rw [Transaction.toJson_eq_around_type]
    show Json.lookup "type" (_ ++ _) = _
    rw [Json.lookup_append_of_avoids t.avoids_membersBeforeType (List.mem_singleton_self _),
      Json.lookup_append, Json.lookup_textField, if_pos rfl]
  rw [Document.isResultOperation, member?_document, hlookup,
    Json.lookup_of_avoids t.avoids_membersBehindType, Option.or_none, Json.textMember?]
  split
  · rfl
  · simpa using h

theorem member?_put (name id : String) (body : Json) :
    (Document.put index id body).member? name = Json.lookup name body.membersOf :=
  rfl

theorem receiverShard?_put (r : ContractResult) :
    (Document.put index r.hash r.toJson).receiverShard? = some r.receiverShard := by
  have hlookup : Json.lookup "receiverShard" r.toJson.membersOf =
      some (.uint32 r.receiverShard) := by
    rw [ContractResult.toJson_eq_around_type]
    show Json.lookup "receiverShard" (_ ++ _) = _
    simp [ContractResult.membersBeforeType, Json.lookup_append, Json.lookup_textField, Json.lookup]
  rw [Document.receiverShard?, member?_put, hlookup, Option.bind_some, Json.uint32?_uint32]

theorem isResultOperation_put (self : UInt32) (r : ContractResult) :
    (Document.put index r.hash (r.asOperation self).toJson).isResultOperation = true := by
  have hlookup : Json.lookup "type" (r.asOperation self).toJson.membersOf =
      some (.string "unsigned") := by
    rw [ContractResult.toJson_eq_around_type]
    show Json.lookup "type" (_ ++ _) = _
    rw [Json.lookup_append_of_avoids (r.asOperation self).avoids_membersBeforeType (by decide)]
    rfl
  rw [Document.isResultOperation, member?_put, hlookup]
  rfl

/-- The end of a transaction shows neither a shard nor a type. -/
theorem member?_endingDocuments {endings : Table Ending} {d : Document}
    (hd : d ∈ endingDocuments index endings) :
    d.member? "receiverShard" = none ∧ d.member? "type" = none := by
  obtain ⟨e, -, rfl⟩ := List.mem_map.mp hd
  have havoids : Json.Avoids ["receiverShard", "type"] e.2.toJson.membersOf := by
    unfold Ending.toJson
    cases e.2.status <;> simp [Json.membersOf]
  have hlookup : ∀ name ∈ ["receiverShard", "type"],
      Json.lookup name e.2.toJson.membersOf = none := by
    intro name hname
    have hnil := Json.lookup_append_of_avoids havoids hname []
    rwa [List.append_nil] at hnil
  exact ⟨hlookup _ (by decide), hlookup _ (by decide)⟩

theorem member?_feeDocuments {fees : Table FeeCorrection} {d : Document}
    (hd : d ∈ feeDocuments index fees) :
    d.member? "receiverShard" = none ∧ d.member? "type" = none := by
  obtain ⟨e, -, rfl⟩ := List.mem_map.mp hd
  exact ⟨rfl, rfl⟩

end

/-! ### Sections that repeat others

Documents about ends and costs are the same in both indices but for the name of the index, as they
show no record. -/

section

variable {index index' : String} {importMode : Bool} {self : UInt32}

/-- The document of an operation is that of its transaction, in another index and with its type. -/
theorem repeatsTransaction_document {t : Transaction} (h : t.type = "") :
    (t.document index self).RepeatsTransaction index' (t.asOperation.document index' self) := by
  refine ⟨rfl, rfl, ?_⟩
  rw [receiverShard?_document, Option.isSome_some, if_pos rfl]
  show (t.action self).Adds _ (t.asOperation.action self)
  rcases t.action_asOperation self with ⟨script, haction, haction'⟩ | ⟨haction, haction'⟩
  · rw [haction, haction']
    exact .update script (Transaction.adds_asOperation h)
  · rw [haction, haction']
    exact .put (Transaction.adds_asOperation h)

/-- What shows no shard stands in the other index as it is. -/
theorem repeatsTransaction_update {id : String} {script : UpdateScript}
    {ms : List (String × Json)}
    (h : (Document.update index id script (.object ms)).member? "receiverShard" = none) :
    (Document.update index id script (.object ms)).RepeatsTransaction index'
      (.update index' id script (.object ms)) := by
  refine ⟨rfl, rfl, ?_⟩
  rw [Document.receiverShard?, h, Option.bind_none, Option.isSome_none,
    if_neg Bool.false_ne_true]
  exact .update script (Json.Adds.refl ms)

theorem repeatsResult_put {r : ContractResult} (htype : r.type = "") (hstatus : r.status = none)
    (hignored : r.canBeIgnored = false) :
    (Document.put index r.hash r.toJson).RepeatsResult index' self
      (.put index' (r.asOperation self).hash (r.asOperation self).toJson) :=
  ⟨r.receiverShard, r.repeatsTransaction, receiverShard?_put r, rfl, rfl,
    .put (ContractResult.adds_asOperation htype hstatus hignored self)⟩

theorem forall₂_endingDocuments (endings : Table Ending) :
    List.Forall₂ (Document.RepeatsTransaction index') (endingDocuments index endings)
      (endingDocuments index' endings) :=
  forall₂_map_map fun _ he =>
    repeatsTransaction_update (member?_endingDocuments (List.mem_map_of_mem he)).1

theorem forall₂_feeDocuments (fees : Table FeeCorrection) :
    List.Forall₂ (Document.RepeatsTransaction index') (feeDocuments index fees)
      (feeDocuments index' fees) :=
  forall₂_map_map fun _ _ => repeatsTransaction_update rfl

/-! ### What import mode leaves out

The code filters records before it makes documents of them. Filtering the documents by the shard
that they show comes to the same. -/

theorem filter_isWanted_map {α : Type} {f : α → Document} {receiver : α → UInt32} (as : List α)
    (h : ∀ a, (f a).receiverShard? = some (receiver a)) :
    (as.map f).filter (·.isWanted importMode self) =
      (as.filter fun a => isIndexed importMode self (receiver a)).map f := by
  rw [List.filter_map]
  congr 1
  apply List.filter_congr
  intro a _
  show Option.all _ (f a).receiverShard? = _
  rw [h]
  rfl

theorem filter_isWanted_of_none {docs : List Document}
    (h : ∀ d ∈ docs, d.member? "receiverShard" = none) :
    docs.filter (·.isWanted importMode self) = docs := by
  rw [List.filter_eq_self]
  intro d hd
  rw [Document.isWanted, Document.receiverShard?, h d hd]
  rfl

/-! ### Which operations are results -/

theorem filter_isResultOperation_of_false (docs : List Document)
    (h : ∀ d ∈ docs, d.isResultOperation = false) :
    docs.filter (·.isResultOperation) = [] ∧
      docs.filter (fun d => !d.isResultOperation) = docs := by
  rw [List.filter_eq_nil_iff, List.filter_eq_self]
  refine ⟨fun d hd => ?_, fun d hd => ?_⟩
  · rw [h d hd]
    exact Bool.false_ne_true
  · rw [h d hd]
    rfl

theorem isResultOperation_of_none {d : Document} (h : d.member? "type" = none) :
    d.isResultOperation = false := by
  rw [Document.isResultOperation, h]
  rfl

end

/-! ### The records of a block

Logs change what transactions and results show of themselves, but not the parts that are asked for
here, so these are read off what has been settled. -/

theorem exists_mem_of_map_eq {α β : Type} {f : α → β} {as as' : List α}
    (h : as.map f = as'.map f) {a : α} (ha : a ∈ as) : ∃ a' ∈ as', f a' = f a :=
  List.mem_map.mp (h ▸ List.mem_map_of_mem ha)

namespace Network

variable {n : Network} {importMode : Bool} {b : Block}

/-- Reading the logs changes a transaction only in what logs tell. -/
theorem map_unread_digest (n : Network) (importMode : Bool) (b : Block) :
    (n.digest importMode b).settled.transactions.map (·.unread) =
      (n.settle b importMode).transactions.map (·.unread) := by
  have hreads : n.Reads b.stamp
      ⟨(n.settle b importMode).transactions, (n.settle b importMode).results, {}⟩ _ :=
    reads_readLogs _ b.logs
  exact hreads.map_unread

theorem map_unread_results_digest (n : Network) (importMode : Bool) (b : Block) :
    (n.digest importMode b).settled.results.map (·.unread) =
      (n.settle b importMode).results.map (·.unread) := by
  have hreads : n.Reads b.stamp
      ⟨(n.settle b importMode).transactions, (n.settle b importMode).results, {}⟩ _ :=
    reads_readLogs _ b.logs
  exact hreads.map_unread_results

/-- A transaction of the block has no type. -/
theorem type_of_mem_digest {t : Transaction}
    (ht : t ∈ (n.digest importMode b).settled.transactions) : t.type = "" := by
  obtain ⟨u, hu, heq⟩ := exists_mem_of_map_eq (n.map_unread_digest importMode b) ht
  have htype : u.type = t.type :=
    (congrArg Transaction.type heq :)
  obtain ⟨h, -, hh, -⟩ := exists_of_mem_settle hu
  obtain ⟨p, hp⟩ := exists_comesFrom hh hu
  rw [← htype, hp.type_eq]

/-- A result of the block shows nothing that an operation adds. -/
theorem plain_of_mem_digest {r : ContractResult}
    (hr : r ∈ (n.digest importMode b).settled.results) :
    r.type = "" ∧ r.status = none ∧ r.canBeIgnored = false := by
  obtain ⟨u, hu, heq⟩ := exists_mem_of_map_eq (n.map_unread_results_digest importMode b) hr
  have hplain : u.type = "" ∧ u.status = none ∧ u.canBeIgnored = false := by
    obtain ⟨_, _, _, _, -, -, -, rfl⟩ := mem_settle_results.mp hu
    exact ⟨rfl, rfl, rfl⟩
  have htype : u.type = r.type :=
    (congrArg ContractResult.type heq :)
  have hstatus : u.status = r.status :=
    (congrArg ContractResult.status heq :)
  have hignored : u.canBeIgnored = r.canBeIgnored :=
    (congrArg ContractResult.canBeIgnored heq :)
  rwa [htype, hstatus, hignored] at hplain

end Network

/-! ### The documents of three indices -/

namespace Digested

variable {d : Digested} {tokens : ResolvedTokens} {names : IndexNames}
  (hnames : names.toList.Nodup)
include hnames

theorem documentsIn_transactions :
    documentsIn names.transactions (d.documents tokens names) =
      transactionDocuments names.transactions d.stamp.shard d.findings.endings
          d.settled.transactions ++ feeDocuments names.transactions d.settled.fees := by
  have hne := IndexNames.not_mem_eraseIdx hnames (show _[0]? = some names.transactions from rfl)
  simp only [IndexNames.toList, List.eraseIdx, List.mem_cons, List.not_mem_nil, not_or] at hne
  rw [documentsIn, filter_documents]
  simp [sections, hne]

theorem documentsIn_results :
    documentsIn names.results (d.documents tokens names) =
      resultDocuments names.results d.settled.results := by
  have hne := IndexNames.not_mem_eraseIdx hnames (show _[1]? = some names.results from rfl)
  simp only [IndexNames.toList, List.eraseIdx, List.mem_cons, List.not_mem_nil, not_or] at hne
  rw [documentsIn, filter_documents]
  simp [sections, hne]

theorem documentsIn_operations :
    documentsIn names.operations (d.documents tokens names) =
      transactionDocuments names.operations d.stamp.shard d.findings.endings d.operations ++
        (resultDocuments names.operations d.resultOperations ++
          feeDocuments names.operations d.settled.fees) := by
  have hne := IndexNames.not_mem_eraseIdx hnames (show _[14]? = some names.operations from rfl)
  simp only [IndexNames.toList, List.eraseIdx, List.mem_cons, List.not_mem_nil, not_or] at hne
  rw [documentsIn, filter_documents]
  simp [sections, hne]

end Digested

/-! ### Main result -/

section

variable {index index' : String} {importMode : Bool} {self : UInt32}

theorem inOrderOfKinds_documents (endings : Table Ending) (txs : List Transaction)
    (fees : Table FeeCorrection) :
    InOrderOfKinds (transactionDocuments index self endings txs ++ feeDocuments index fees) := by
  refine ⟨txs.map (·.document index self), endingDocuments index endings, feeDocuments index fees,
    by rw [transactionDocuments, List.append_assoc], ?_, ?_, ?_⟩
  · intro d hd
    obtain ⟨t, -, rfl⟩ := List.mem_map.mp hd
    rw [receiverShard?_document]
    rfl
  · intro d hd
    obtain ⟨e, -, rfl⟩ := List.mem_map.mp hd
    rfl
  · intro d hd
    obtain ⟨⟨hash, f⟩, -, rfl⟩ := List.mem_map.mp hd
    show Document.correctsFee (.script index hash f.script) = true
    obtain h | h := f.script_cases <;> rw [h] <;> rfl

/-- The documents of transactions, of ends and of costs that are wanted. -/
theorem filter_isWanted_documents (endings : Table Ending) (txs : List Transaction)
    (fees : Table FeeCorrection) :
    (transactionDocuments index self endings txs ++ feeDocuments index fees).filter
        (·.isWanted importMode self) =
      (txs.filter fun t => isIndexed importMode self t.receiverShard).map (·.document index self) ++
        (endingDocuments index endings ++ feeDocuments index fees) := by
  have htxs : (txs.map (·.document index self)).filter (·.isWanted importMode self) =
      (txs.filter fun t => isIndexed importMode self t.receiverShard).map
        (·.document index self) :=
    filter_isWanted_map txs (receiverShard?_document self)
  rw [transactionDocuments, List.append_assoc, List.filter_append, List.filter_append, htxs,
    filter_isWanted_of_none fun d hd => (member?_endingDocuments hd).1,
    filter_isWanted_of_none fun d hd => (member?_feeDocuments hd).1]

variable (index self) in
/-- The operations fall into those that are results and all others. -/
theorem filter_isResultOperation_documents (endings : Table Ending) (txs : List Transaction)
    (results : List ContractResult) (fees : Table FeeCorrection) :
    let docs := transactionDocuments index self endings (txs.map (·.asOperation)) ++
      (resultDocuments index (results.map (·.asOperation self)) ++ feeDocuments index fees)
    docs.filter (·.isResultOperation) =
        resultDocuments index (results.map (·.asOperation self)) ∧
      docs.filter (fun d => !d.isResultOperation) =
        (txs.map (·.asOperation)).map (·.document index self) ++
          (endingDocuments index endings ++ feeDocuments index fees) := by
  -- of the four parts only the documents of results look like results
  have htxs := filter_isResultOperation_of_false
    ((txs.map (·.asOperation)).map (·.document index self)) ?_
  have hendings := filter_isResultOperation_of_false (endingDocuments index endings)
    fun d hd => isResultOperation_of_none (member?_endingDocuments hd).2
  have hfees := filter_isResultOperation_of_false (feeDocuments index fees)
    fun d hd => isResultOperation_of_none (member?_feeDocuments hd).2
  have hresults : ∀ d ∈ resultDocuments index (results.map (·.asOperation self)),
      d.isResultOperation = true := by
    intro d hd
    obtain ⟨r, hr, rfl⟩ := List.mem_map.mp hd
    obtain ⟨u, -, rfl⟩ := List.mem_map.mp hr
    exact isResultOperation_put self u
  have hothers : (resultDocuments index (results.map (·.asOperation self))).filter
      (fun d => !d.isResultOperation) = [] := by
    rw [List.filter_eq_nil_iff]
    intro d hd
    rw [hresults d hd]
    exact Bool.false_ne_true
  · dsimp only
    rw [transactionDocuments, List.append_assoc]
    simp only [List.filter_append, htxs, hendings, hfees, List.filter_eq_self.mpr hresults,
      hothers, List.nil_append, List.append_nil, and_self]
  · intro d hd
    obtain ⟨t, ht, rfl⟩ := List.mem_map.mp hd
    obtain ⟨u, -, rfl⟩ := List.mem_map.mp ht
    have htype : u.asOperation.type ≠ "unsigned" := by
      show "normal" ≠ "unsigned"
      decide
    exact isResultOperation_document self htype

end

/-- The documents of the operations index repeat those of the transactions index, which come in the
order of their kinds, and those of the results index, in the same order, without what import mode
leaves out. -/
theorem Indexer.yields_operations (x : Indexer) (hnames : x.names.toList.Nodup)
    (store : TokenStore) (b : Block) :
    x.Yields store b (MirrorsOperations x.names x.importMode b.shard) := by
  refine yields_of_documents fun tokens _ => ?_
  set d := x.network.digest x.importMode b
  have hshard : d.stamp.shard = b.shard := rfl
  have hoperations : d.operations = (d.settled.transactions.filter fun t =>
      isIndexed x.importMode b.shard t.receiverShard).map (·.asOperation) := rfl
  have hresults : d.resultOperations = (d.settled.results.filter fun r =>
      isIndexed x.importMode b.shard r.receiverShard).map (·.asOperation b.shard) := rfl
  obtain ⟨hresultOperations, hothers⟩ := filter_isResultOperation_documents x.names.operations
    b.shard d.findings.endings
    (d.settled.transactions.filter fun t => isIndexed x.importMode b.shard t.receiverShard)
    (d.settled.results.filter fun r => isIndexed x.importMode b.shard r.receiverShard)
    d.settled.fees
  constructor
  case kinds =>
    rw [Digested.documentsIn_transactions hnames, hshard]
    exact inOrderOfKinds_documents _ _ _
  case transactions =>
    rw [Digested.documentsIn_transactions hnames, Digested.documentsIn_operations hnames, hshard,
      hoperations, hresults, hothers, filter_isWanted_documents, List.map_map]
    refine List.rel_append (forall₂_map_map fun t ht => ?_)
      (List.rel_append (forall₂_endingDocuments _) (forall₂_feeDocuments _))
    exact repeatsTransaction_document (Network.type_of_mem_digest (List.mem_of_mem_filter ht))
  case results =>
    -- results are written as they come, and as operations only those that arrive
    rw [Digested.documentsIn_results hnames, Digested.documentsIn_operations hnames, hshard,
      hoperations, hresults, hresultOperations, resultDocuments,
      filter_isWanted_map _ receiverShard?_put, resultDocuments, List.map_map]
    refine forall₂_map_map fun r hr => ?_
    obtain ⟨htype, hstatus, hignored⟩ := Network.plain_of_mem_digest (List.mem_of_mem_filter hr)
    exact repeatsResult_put htype hstatus hignored

/-- A transaction that arrives and a result that is on its way to another shard, in import mode. -/
theorem Indexer.yields_operations_of_import :
    let b : Block :=
      { header := some {}
        miniBlocks := [⟨.transactions, 1, 0, [[1]]⟩, ⟨.results, 0, 1, [[2]]⟩]
        pool := some { transactions := .ofList [("01", {})], results := .ofList [("02", {})] } }
    ({} : IndexNames).toList.Nodup ∧
      ∃ docs, ((⟨default, true, {}⟩ : Indexer).process .empty b).result = .ok docs ∧
        MirrorsOperations {} true 0 docs := by
  intro b
  have hnames : ({} : IndexNames).toList.Nodup := by decide
  obtain ⟨docs, hdocs⟩ := exists_process_result ⟨default, true, {}⟩ (fun _ _ => ⟨[], rfl⟩) b
  exact ⟨hnames, docs, hdocs, (yields_operations _ hnames .empty b).of_result hdocs⟩

end ChainIndex
