import ChainIndex.Proofs.Events.Endings
import ChainIndex.Proofs.Indexer
import ChainIndex.Proofs.Json
import ChainIndex.Proofs.Settlement.Orphans
import ChainIndex.Proofs.Search.Kinds

/-!
# How transactions of other blocks have ended

A block learns of the end of a transaction that it does not have in two ways. The log of a result
tells of the transaction that the result goes back to, and a result that gives items back tells that
its transaction has failed. `Network.TellsEnding` says what is learned, and `Indexer.yields_endings`
that there is one document for each transaction of which something is learned, in the order of the
hashes. Neither the order of the logs nor that of their events counts.

Reports come one after another and are added to what is known. The proof turns this into three
questions that have no order: whether a result gives items back, whether some log tells of a
failure, and whether some log tells of completion (`Network.get?_endings_digest`). All that is known
of a hash is a function of the three answers, so it is the same for blocks that answer alike
(`Network.endings_digest_of_sameReports`), and what is told of an end is compared with it case by
case. What a document says is spelled out in `Ending.Writes`, field by field of its body. A merge
adds what the body says and never clears a field, so a body has to be silent about what is not
known.
-/

namespace ChainIndex

/-! ### What a block tells of an end -/

namespace Network

/-- An event with one of some identifiers stands in the log of a result that goes back to a
transaction, and the log is not that of a transaction of the block. -/
def Hears (n : Network) (importMode : Bool) (b : Block) (identifiers : List String)
    (hash : String) : Prop :=
  hash ≠ "" ∧
    ∃ l ∈ b.logs, (∃ event ∈ l.log.events, event.identifier ∈ identifiers) ∧
      (∃ s ∈ (n.settle b importMode).results, s.hash = l.hash ∧ s.originHash = hash) ∧
      ∀ t ∈ (n.settle b importMode).transactions, t.hash ≠ l.hash

/-- A result gives items back, and no miniblock lists the transaction that it goes back to. -/
def GetsBack (n : Network) (importMode : Bool) (b : Block) (hash : String) : Prop :=
  ∃ h pool, b.header = some h ∧ b.pool = some pool ∧
    (∃ s ∈ n.resultsOf h pool b.miniBlocks, s.originHash = hash ∧ s.GivesItemsBack) ∧
    ∀ p ∈ b.miniBlocks.zipIdx, ∀ t, ¬ n.ListsTransaction h pool importMode p hash t

/-- What a block tells of the end of a transaction of another block. -/
structure TellsEnding (n : Network) (importMode : Bool) (b : Block) (hash : String)
    (e : Ending) : Prop where
  told : n.GetsBack importMode b hash ∨ n.Hears importMode b failureIdentifiers hash ∨
    n.Hears importMode b ["completedTxEvent"] hash
  /-- No report takes a failure back. -/
  failed : e.status = some .fail ↔
    n.GetsBack importMode b hash ∨ n.Hears importMode b failureIdentifiers hash
  unfailed : e.status = none ↔
    ¬ (n.GetsBack importMode b hash ∨ n.Hears importMode b failureIdentifiers hash)
  hasError : e.hasError = true ↔ n.Hears importMode b failureIdentifiers hash
  isComplete : e.isComplete = true ↔ n.Hears importMode b ["completedTxEvent"] hash

end Network

/-- A body tells of an end what is known of it, and is silent about the rest. -/
structure Ending.ShownBy (e : Ending) (body : Json) : Prop where
  status : Json.lookup "status" body.membersOf =
    if e.status = some .fail then some (.string "fail") else none
  errorEvent : Json.lookup "errorEvent" body.membersOf =
    if e.hasError then some (.bool true) else none
  completedEvent : Json.lookup "completedEvent" body.membersOf =
    if e.isComplete then some (.bool true) else none

/-- What is written about the end of a transaction: what is stored under its hash is merged with
what is known, and where nothing is stored a body that tells the same takes the place. -/
def Ending.Writes (index : String) (told : String × Ending) (d : Document) : Prop :=
  ∃ body, told.2.ShownBy body ∧ d = .update index told.1 (.mergeEnding told.2) body

/-- An event with an identifier stands in the log of a record. -/
def Block.HasEvent (b : Block) (hash identifier : String) : Prop :=
  ∃ l ∈ b.logs, l.hash = hash ∧ ∃ event ∈ l.log.events, event.identifier = identifier

/-- Two blocks execute the same records, and the logs of a record have the same kinds of events, in
whatever order and however often. -/
structure Block.SameReports (b b' : Block) : Prop where
  header : b'.header = b.header
  miniBlocks : b'.miniBlocks = b.miniBlocks
  records : (b'.pool.map fun pool => { pool with logs := [] }) =
    b.pool.map fun pool => { pool with logs := [] }
  events : ∀ hash identifier, b'.HasEvent hash identifier ↔ b.HasEvent hash identifier

theorem Block.SameReports.refl (b : Block) : b.SameReports b :=
  ⟨rfl, rfl, rfl, fun _ _ => Iff.rfl⟩

/-! ### What the logs and the results contribute

The names of records are fixed once a block is settled, since reading logs only marks records. So
which transaction a log tells of can be said before the first log is read. -/

namespace Network

variable {n : Network} {importMode : Bool} {b b' : Block} {hash : String}

theorem nodup_hash_settle_results (n : Network) (importMode : Bool) (b : Block) :
    ((n.settle b importMode).results.map (·.hash)).Nodup := by
  unfold settle
  split
  · exact nodup_hash_resultsOf _ _ _ _
  · exact List.nodup_nil

/-- The names of the records of a block. -/
def settledNames (n : Network) (importMode : Bool) (b : Block) :
    List String × List (String × String) :=
  Reading.names ⟨(n.settle b importMode).transactions, (n.settle b importMode).results, {}⟩

/-- Whether some event with one of some identifiers tells of a transaction. -/
def hears (n : Network) (importMode : Bool) (b : Block) (identifiers : List String)
    (hash : String) : Bool :=
  (loggedEvents b.logs).any (·.tells (n.settledNames importMode b) identifiers hash)

theorem hears_iff_hasEvent {identifiers : List String} :
    n.hears importMode b identifiers hash = true ↔
      ∃ key identifier, b.HasEvent key identifier ∧ identifier ∈ identifiers ∧
        originOutside? (n.settledNames importMode b) key = some hash := by
  simp only [hears, List.any_eq_true, mem_loggedEvents, LoggedEvent.tells, Bool.and_eq_true,
    List.contains_iff_mem, beq_iff_eq]
  constructor
  · rintro ⟨-, ⟨l, hl, event, hevent, rfl⟩, hidentifier, htold⟩
    exact ⟨l.hash, event.identifier, ⟨l, hl, rfl, event, hevent, rfl⟩, hidentifier, htold⟩
  · rintro ⟨-, -, ⟨l, hl, rfl, event, hevent, rfl⟩, hidentifier, htold⟩
    exact ⟨_, ⟨l, hl, event, hevent, rfl⟩, hidentifier, htold⟩

theorem hears_eq_true_iff {identifiers : List String} :
    n.hears importMode b identifiers hash = true ↔ n.Hears importMode b identifiers hash := by
  have horigin : ∀ key, originOutside? (n.settledNames importMode b) key = some hash ↔
      (∀ t ∈ (n.settle b importMode).transactions, t.hash ≠ key) ∧ hash ≠ "" ∧
        ∃ s ∈ (n.settle b importMode).results, s.hash = key ∧ s.originHash = hash :=
    fun key => originOutside?_eq_some_iff (n.nodup_hash_settle_results importMode b)
  rw [hears_iff_hasEvent]
  constructor
  · rintro ⟨-, -, ⟨l, hl, rfl, event, hevent, rfl⟩, hidentifier, htold⟩
    obtain ⟨hothers, hne, hresult⟩ := (horigin l.hash).mp htold
    exact ⟨hne, l, hl, ⟨event, hevent, hidentifier⟩, hresult, hothers⟩
  · rintro ⟨hne, l, hl, ⟨event, hevent, hidentifier⟩, hresult, hothers⟩
    exact ⟨l.hash, event.identifier, ⟨l, hl, rfl, event, hevent, rfl⟩, hidentifier,
      (horigin l.hash).mpr ⟨hothers, hne, hresult⟩⟩

theorem get?_settle_statuses {status : TxStatus} :
    (n.settle b importMode).statuses.get? hash = some status ↔
      status = .fail ∧ n.GetsBack importMode b hash := by
  unfold settle GetsBack
  cases b.header with
  | none => simp [Table.get?, Table.empty, Table.lookup]
  | some h =>
      cases b.pool with
      | none => simp [Table.get?, Table.empty, Table.lookup]
      | some pool =>
          simp only [get?_failuresOf, orphansOf, List.mem_filter, Option.some.injEq,
            exists_and_left, exists_eq_left', ← not_contains_transactionTable_iff]
          refine and_congr_right fun _ => ⟨?_, ?_⟩
          · rintro ⟨s, ⟨hs, horphan⟩, rfl, hback⟩
            exact ⟨⟨s, hs, rfl, hback⟩, horphan⟩
          · rintro ⟨⟨s, hs, rfl, hback⟩, horphan⟩
            exact ⟨s, ⟨hs, horphan⟩, rfl, hback⟩

end Network

/-! ### What they come to together

The logs are read first, and what the results tell is merged into what they have left. A failure is
the only status that there is to tell, so nothing is lost in between. -/

theorem get?_withStatuses (statuses : Table TxStatus) (endings : Table Ending) (hash : String) :
    (withStatuses statuses endings).get? hash =
      ((statuses.get? hash).map fun status =>
        ((endings.get? hash).getD {}).withStatus status).or (endings.get? hash) :=
  Table.get?_foldl_alter (f := fun (status : TxStatus) (known : Option Ending) =>
    (known.getD {}).withStatus status) statuses.nodup_keys endings hash

namespace Network

variable {n : Network} {importMode : Bool} {b b' : Block} {hash : String}

theorem get?_endings_digest (n : Network) (importMode : Bool) (b : Block) (hash : String) :
    (n.digest importMode b).findings.endings.get? hash =
      let known := Ending.ofMarks (n.hears importMode b failureIdentifiers hash)
        (n.hears importMode b [completedIdentifier] hash)
      (((n.settle b importMode).statuses.get? hash).map (known.getD {}).withStatus).or
        known := by
  show (withStatuses _ _).get? hash = _
  rw [get?_withStatuses, get?_endings_readLogs]
  rfl

/-- What a block tells of an end, where it is known which reports there are. -/
theorem tellsEnding_iff {back failed complete : Bool} {e : Ending}
    (hback : back = true ↔ n.GetsBack importMode b hash)
    (hfailed : failed = true ↔ n.Hears importMode b failureIdentifiers hash)
    (hcomplete : complete = true ↔ n.Hears importMode b ["completedTxEvent"] hash) :
    n.TellsEnding importMode b hash e ↔
      (back || failed || complete) = true ∧
        e.status = (if back || failed then some .fail else none) ∧ e.hasError = failed ∧
        e.isComplete = complete := by
  constructor
  · rintro ⟨htold, hstatus, hnone, herror, hdone⟩
    rw [← hback, ← hfailed, ← hcomplete] at htold
    rw [← hback, ← hfailed, ← Bool.or_eq_true] at hstatus hnone
    rw [← hfailed] at herror
    rw [← hcomplete] at hdone
    refine ⟨by simpa [or_assoc] using htold, ?_, Bool.eq_iff_iff.mpr herror,
      Bool.eq_iff_iff.mpr hdone⟩
    split
    · next hfail => exact hstatus.mpr hfail
    · next hfine => exact hnone.mpr hfine
  · rintro ⟨htold, hstatus, rfl, rfl⟩
    refine ⟨?_, ?_, ?_, hfailed, hcomplete⟩
    · rw [← hback, ← hfailed, ← hcomplete]
      simpa [or_assoc] using htold
    · rw [← hback, ← hfailed, ← Bool.or_eq_true, hstatus]
      split <;> simp [*]
    · rw [← hback, ← hfailed, ← Bool.or_eq_true, hstatus]
      split <;> simp [*]

/-- Of an end no status but failure is told. -/
theorem TellsEnding.status_eq {e : Ending} (h : n.TellsEnding importMode b hash e) :
    e.status = some .fail ∨ e.status = none := by
  by_cases hfails : n.GetsBack importMode b hash ∨ n.Hears importMode b failureIdentifiers hash
  · exact .inl (h.failed.mpr hfails)
  · exact .inr (h.unfailed.mpr hfails)

/-- What is known of an end is what the block tells. -/
theorem get?_endings_digest_eq_some_iff {e : Ending} :
    (n.digest importMode b).findings.endings.get? hash = some e ↔
      n.TellsEnding importMode b hash e := by
  classical
  have hback : decide (n.GetsBack importMode b hash) = true ↔ n.GetsBack importMode b hash :=
    decide_eq_true_iff
  have hcomplete : n.hears importMode b [completedIdentifier] hash = true ↔
      n.Hears importMode b ["completedTxEvent"] hash := hears_eq_true_iff
  rw [tellsEnding_iff hback hears_eq_true_iff hcomplete, get?_endings_digest]
  have hstatus : (n.settle b importMode).statuses.get? hash =
      if n.GetsBack importMode b hash then some .fail else none := by
    apply Option.ext
    intro status
    rw [get?_settle_statuses]
    split <;> simp [*, eq_comm]
  rw [hstatus]
  -- three answers make eight ends, one of which is no end at all
  obtain ⟨status, hasError, isComplete⟩ := e
  by_cases hgets : n.GetsBack importMode b hash
  · rw [if_pos hgets, decide_eq_true hgets]
    cases n.hears importMode b failureIdentifiers hash <;>
      cases n.hears importMode b [completedIdentifier] hash <;>
      simp [Ending.ofMarks, Ending.withStatus, eq_comm (b := status)]
  · rw [if_neg hgets, decide_eq_false hgets]
    cases n.hears importMode b failureIdentifiers hash <;>
      cases n.hears importMode b [completedIdentifier] hash <;>
      simp [Ending.ofMarks, eq_comm (b := status)]

theorem settle_of_sameReports (h : b.SameReports b') :
    n.settle b' importMode = n.settle b importMode := by
  have hrecords := h.records
  unfold settle
  rw [h.header, h.miniBlocks]
  cases hpool' : b'.pool with
  | none =>
      rw [hpool'] at hrecords
      rw [Option.map_eq_none_iff.mp hrecords.symm]
  | some pool' =>
      rw [hpool'] at hrecords
      obtain ⟨pool, hpool, heq⟩ := Option.map_eq_some_iff.mp hrecords.symm
      -- the logs of a pool are no part of what is settled
      have heq : pool = { pool' with logs := pool.logs } := by
        rw [Pool.mk.injEq] at heq ⊢
        tauto
      rw [hpool, heq]
      cases b.header <;> rfl

/-- Blocks that report the same know the same. -/
theorem endings_digest_of_sameReports (h : b.SameReports b') :
    (n.digest importMode b').findings.endings = (n.digest importMode b).findings.endings := by
  have hsettle : n.settle b' importMode = n.settle b importMode := settle_of_sameReports h
  have hnames : n.settledNames importMode b' = n.settledNames importMode b := by
    rw [settledNames, hsettle, settledNames]
  have hhears : ∀ identifiers hash,
      n.hears importMode b' identifiers hash = n.hears importMode b identifiers hash := by
    intro identifiers hash
    rw [Bool.eq_iff_iff, hears_iff_hasEvent, hears_iff_hasEvent, hnames]
    simp only [h.events]
  apply Table.eq_of_get?_eq
  intro hash
  simp only [get?_endings_digest, hsettle, hhears]

end Network

/-! ### The documents about ends

They are found among all documents by the script, which no document about anything else has. The
index would not do: documents about transactions are in the same two indices. -/

theorem Ending.shownBy_toJson {e : Ending} (h : e.status = some .fail ∨ e.status = none) :
    e.ShownBy e.toJson := by
  have hmembers : e.toJson.membersOf =
      (if e.status = some .fail then [("status", .string "fail")] else []) ++
        Json.switchField "errorEvent" e.hasError ++
        Json.switchField "completedEvent" e.isComplete := by
    unfold toJson Json.membersOf
    rcases h with h | h
    · rw [h]
      rfl
    · rw [h]
      rfl
  -- each of the three fields is found in its own part and in no other one
  constructor
  all_goals rw [hmembers, Json.lookup_append, Json.lookup_append]
  case status =>
    rw [Json.lookup_switchField (by decide), Json.lookup_switchField (by decide), Option.or_none,
      Option.or_none]
    split <;> rfl
  case errorEvent =>
    rw [Json.lookup_switchField_self, Json.lookup_switchField (by decide), Option.or_none]
    split <;> rfl
  case completedEvent =>
    rw [Json.lookup_switchField_self, Json.lookup_switchField (by decide), Option.or_none]
    split <;> rfl

/-- There is one document about each end, under its hash. -/
theorem Ending.forall₂_writes {endings : Table Ending}
    (h : ∀ hash e, endings.get? hash = some e → e.status = some .fail ∨ e.status = none)
    (index : String) :
    List.Forall₂ (Writes index) endings.entries (endingDocuments index endings) := by
  rw [endingDocuments, List.forall₂_map_right_iff, List.forall₂_same]
  intro told htold
  exact ⟨_, shownBy_toJson (h _ _ (Table.get?_eq_some_iff.mpr htold)), rfl⟩

/-- Whether a document tells how a transaction has ended. -/
def Document.mergesEnding (d : Document) : Bool :=
  match d.action with
  | .update (.mergeEnding _) _ => true
  | _ => false

theorem Document.mergesEnding_iff {d : Document} : d.mergesEnding = true ↔ d.kind = .ending := by
  unfold mergesEnding kind
  cases d.action with
  | put body => simp
  | update script body => cases script <;> simp [UpdateScript.kind]
  | delete => simp

theorem filter_mergesEnding_transactionDocuments (index : String) (self : UInt32)
    (endings : Table Ending) (txs : List Transaction) :
    (transactionDocuments index self endings txs).filter (·.mergesEnding) =
      endingDocuments index endings := by
  have htxs : (txs.map (·.document index self)).filter (·.mergesEnding) = [] := by
    rw [List.filter_eq_nil_iff]
    intro d hd
    obtain ⟨t, -, rfl⟩ := List.mem_map.mp hd
    rw [Document.mergesEnding_iff, kind_document_transaction]
    exact ScriptKind.noConfusion
  have hendings : (endingDocuments index endings).filter (·.mergesEnding) =
      endingDocuments index endings := by
    rw [List.filter_eq_self]
    intro d hd
    obtain ⟨e, -, rfl⟩ := List.mem_map.mp hd
    rfl
  rw [transactionDocuments, List.filter_append, htxs, hendings, List.nil_append]

namespace Digested

/-- The ends are told twice, in the index of transactions and in that of operations. -/
theorem filter_mergesEnding_documents (d : Digested) (tokens : ResolvedTokens)
    (names : IndexNames) :
    (d.documents tokens names).filter (·.mergesEnding) =
      endingDocuments names.transactions d.findings.endings ++
        endingDocuments names.operations d.findings.endings := by
  have hrest : (((d.sections tokens names).drop 2).flatMap Prod.snd).filter (·.mergesEnding) =
      [] := by
    rw [List.filter_eq_nil_iff]
    intro e he
    obtain ⟨s, hs, he⟩ := List.mem_flatMap.mp he
    rw [Document.mergesEnding_iff]
    intro hending
    rcases d.ofKinds_of_mem_drop tokens names hs with hkinds | hkinds
    · have hkind := hkinds e he
      rw [hending] at hkind
      exact absurd hkind (by decide)
    · have hkind := hkinds e he
      rw [hending] at hkind
      exact absurd hkind (by decide)
  have hsections : d.documents tokens names =
      transactionDocuments names.transactions d.stamp.shard d.findings.endings
          d.settled.transactions ++
        (transactionDocuments names.operations d.stamp.shard d.findings.endings d.operations ++
          ((d.sections tokens names).drop 2).flatMap Prod.snd) := by
    rw [documents_eq_flatMap]
    rfl
  rw [hsections, List.filter_append, List.filter_append, hrest,
    filter_mergesEnding_transactionDocuments, filter_mergesEnding_transactionDocuments,
    List.append_nil]

end Digested

/-- The documents about ends are one for each transaction of which the block tells an end, in the
order of the hashes, and they are the same for all blocks that report the same. -/
theorem Indexer.yields_endings (x : Indexer) (store : TokenStore) (b : Block) :
    ∃ told : List (String × Ending),
      (told.map Prod.fst).Pairwise (· < ·) ∧
      (∀ hash e, (hash, e) ∈ told ↔ x.network.TellsEnding x.importMode b hash e) ∧
      ∀ b', b.SameReports b' → x.Yields store b' fun docs =>
        ∃ transactionDocs operationDocs : List Document,
          docs.filter (·.mergesEnding) = transactionDocs ++ operationDocs ∧
          List.Forall₂ (Ending.Writes x.names.transactions) told transactionDocs ∧
          List.Forall₂ (Ending.Writes x.names.operations) told operationDocs := by
  set endings := (x.network.digest x.importMode b).findings.endings with hendings
  have htells : ∀ hash e, endings.get? hash = some e ↔
      x.network.TellsEnding x.importMode b hash e := fun hash e =>
    Network.get?_endings_digest_eq_some_iff
  have hwrites := Ending.forall₂_writes fun hash e he => ((htells hash e).mp he).status_eq
  refine ⟨endings.entries, endings.pairwise_keys, fun hash e => ?_, fun b' h => ?_⟩
  · rw [← Table.get?_eq_some_iff, htells]
  · refine yields_of_documents fun tokens _ => ⟨_, _, ?_, hwrites _, hwrites _⟩
    rw [Digested.filter_mergesEnding_documents, Network.endings_digest_of_sameReports h]

/-- A result gives items back to a transaction that the block does not list, and its log says that
it is complete. So the transaction is shown as failed and complete, in both indices. -/
theorem Indexer.yields_endings_of_items_back :
    let back := Utf8.encode "ESDTNFTTransfer@01@02@75736572206572726f72"
    let complete : Event := { address := [0], identifier := "completedTxEvent" }
    let pool : Pool :=
      { results := .ofList [("02", { result := { originHash := [1], data := back } })]
        logs := [⟨"02", ⟨[0], [complete]⟩⟩] }
    let b : Block := { header := some {}, pool := some pool }
    let ending : Ending := { status := some .fail, isComplete := true }
    ∃ docs, ((⟨default, false, {}⟩ : Indexer).process .empty b).result = .ok docs ∧
      ∀ index ∈ ["transactions", "operations"], ∃ body,
        .update index "01" (.mergeEnding ending) body ∈ docs ∧
        Json.lookup "status" body.membersOf = some (.string "fail") ∧
        Json.lookup "completedEvent" body.membersOf = some (.bool true) ∧
        Json.lookup "errorEvent" body.membersOf = none := by
  intro back complete pool b ending
  have hanswers : ∀ ids index, ∃ answers, TokenStore.empty ids index = .ok answers :=
    fun _ _ => ⟨[], rfl⟩
  obtain ⟨docs, hdocs⟩ := exists_process_result ⟨default, false, {}⟩ hanswers b
  have hfails : ((default : Network).settle b false).statuses.get? "01" = some .fail := by decide
  have hback : (default : Network).GetsBack false b "01" :=
    (Network.get?_settle_statuses.mp hfails).2
  have hcomplete : (default : Network).Hears false b [completedIdentifier] "01" :=
    Network.hears_eq_true_iff.mp (by decide)
  have hfine : ¬ (default : Network).Hears false b failureIdentifiers "01" := fun hfailed =>
    absurd (Network.hears_eq_true_iff.mpr hfailed) (by decide)
  have htells : (default : Network).TellsEnding false b "01" ending := by
    constructor
    case told => exact .inl hback
    case failed => exact iff_of_true rfl (.inl hback)
    case unfailed => exact iff_of_false nofun (not_not_intro (.inl hback))
    case hasError => exact iff_of_false nofun hfine
    case isComplete => exact iff_of_true rfl hcomplete
  obtain ⟨told, -, htold, hyields⟩ := yields_endings ⟨default, false, {}⟩ .empty b
  obtain ⟨transactionDocs, operationDocs, hfilter, htransactions, hoperations⟩ :=
    (hyields b (.refl b)).of_result hdocs
  have hmem : ("01", ending) ∈ told := (htold _ _).mpr htells
  have hin : ∀ d ∈ transactionDocs ++ operationDocs, d ∈ docs := by
    intro d hd
    rw [← hfilter] at hd
    exact List.mem_of_mem_filter hd
  refine ⟨docs, hdocs, ?_⟩
  simp only [List.forall_mem_cons]
  refine ⟨?_, ?_, nofun⟩
  · obtain ⟨_, hd, body, hbody, rfl⟩ := exists_mem_of_forall₂ htransactions hmem
    exact ⟨body, hin _ (List.mem_append_left _ hd), hbody.status, hbody.completedEvent,
      hbody.errorEvent⟩
  · obtain ⟨_, hd, body, hbody, rfl⟩ := exists_mem_of_forall₂ hoperations hmem
    exact ⟨body, hin _ (List.mem_append_right _ hd), hbody.status, hbody.completedEvent,
      hbody.errorEvent⟩

end ChainIndex
