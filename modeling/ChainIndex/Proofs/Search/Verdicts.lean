import ChainIndex.Proofs.Events.Verdicts
import ChainIndex.Proofs.Search.Cost
import ChainIndex.Proofs.Search.Operations

/-!
# What a document shows of an end

The document of a transaction shows the status that the last verdict of its logs has settled, and a
mark if any of its logs has reported a failure (`Indexer.yields_endsBy`). So a failure is shown
together with another status exactly if an ordinary end is reported after it.

Transactions, what is left of them after reading, and their documents stand in the same places, so
they are compared by position. A hash would not do: a reward may have the hash of a transaction, and
then the logs of that hash are read for the last of them only. What a body shows is found among the
members behind those of the cost, where no name comes twice.
-/

namespace ChainIndex

/-! ### The status and the mark in a body -/

namespace Transaction

theorem lookup_membersAfter {name : String}
    (hbefore : ∀ t : Transaction, Json.Avoids [name] (t.membersBefore ++ t.costMembers))
    (t : Transaction) :
    Json.lookup name t.toJson.membersOf = Json.lookup name t.membersAfter := by
  rw [membersOf_toJson, ← List.append_assoc,
    Json.lookup_append_of_avoids (hbefore t) (List.mem_singleton_self _)]

theorem lookup_status (t : Transaction) :
    Json.lookup "status" t.toJson.membersOf = some (.string t.status.name) := by
  rw [lookup_membersAfter fun t => by simp [membersBefore, costMembers]]
  unfold membersAfter
  simp only [Json.lookup_append, Json.lookup_textField]
  simp (disch := decide) only [Json.lookup_countField, Json.lookup_bytesField,
    Json.lookup_switchField, Json.lookup_listField]
  simp [Json.lookup]

theorem lookup_errorEvent (t : Transaction) :
    Json.lookup "errorEvent" t.toJson.membersOf =
      if t.errorEvent then some (.bool true) else none := by
  rw [lookup_membersAfter fun t => by simp [membersBefore, costMembers]]
  unfold membersAfter
  simp only [Json.lookup_append, Json.lookup_textField, Json.lookup_switchField_self]
  simp (disch := decide) only [Json.lookup_countField, Json.lookup_bytesField,
    Json.lookup_switchField, Json.lookup_listField]
  simp [Json.lookup]

end Transaction

/-! ### Transactions whose logs are read

The reports of a transaction are fixed by the logs, so that reading becomes a function of a list of
identifiers, and its effect on status and mark is known for any such list. -/

/-- The reports that logs make of a transaction, where some transactions stand behind it: the logs
of a hash are those of the last transaction with it. -/
def reportsTo (logs : List LogEntry) (later : List Transaction) (t : Transaction) :
    List String :=
  if later.any (·.hash == t.hash) then [] else reportsOf logs t.hash

namespace Network

variable {n : Network} {importMode : Bool} {b : Block}

/-- Reading the logs ends a transaction by their reports, and leaves alone what logs do not tell. -/
theorem exists_endsBy {front later : List Transaction} {t : Transaction}
    (ht : (n.settle b importMode).transactions = front ++ t :: later) :
    ∃ u, (n.digest importMode b).settled.transactions[front.length]? = some u ∧
      u.unread = t.unread ∧ u.EndsBy (reportsTo b.logs later t) t.status := by
  have hmem : t ∈ (n.settle b importMode).transactions := by simp [ht]
  obtain ⟨h, -, hh, -⟩ := exists_of_mem_settle hmem
  obtain ⟨p, hp⟩ := exists_comesFrom hh hmem
  obtain ⟨herror, hcomplete⟩ := hp.unread_marks
  have hreports : ∀ i ∈ reportsTo b.logs later t, i ∈ endings.identifiers := by
    intro i hi
    rw [reportsTo] at hi
    split at hi
    · cases hi
    · exact mem_identifiers_of_mem_reportsOf hi
  -- marks for logs and operations aside, the transaction is what its reports make of it
  have hread : (n.digest importMode b).settled.transactions.map (·.unmarked) =
      (toldBy (reportsOf b.logs) (n.settle b importMode).transactions).map (·.unmarked) :=
    n.transactions_readLogs b.stamp b.logs _ _
  have hat := congrArg (·[front.length]?) hread
  simp only [List.getElem?_map, ht, getElem?_toldBy, Option.map_some,
    Option.map_eq_some_iff] at hat
  obtain ⟨u, hu, heq⟩ := hat
  have hends : (t.endedByAll (reportsTo b.logs later t)).EndsBy (reportsTo b.logs later t)
      t.status :=
    Transaction.endsBy_endedByAll hreports herror hcomplete
  have hunread : u.unread = (t.endedByAll (reportsTo b.logs later t)).unread :=
    (congrArg Transaction.unread heq :)
  exact ⟨u, hu, hunread.trans (Transaction.unread_endedByAll _ t), hends.of_unmarked_eq heq⟩

end Network

/-- The documents of a block begin with those of its transactions. -/
theorem Digested.exists_documents_eq (d : Digested) (tokens : ResolvedTokens)
    (names : IndexNames) :
    ∃ rest, d.documents tokens names =
      d.settled.transactions.map (·.document names.transactions d.stamp.shard) ++ rest := by
  rw [documents_eq_flatMap]
  exact ⟨_, List.append_assoc _ _ _⟩

/-! ### Main result -/

/-- The document of a transaction shows how it has ended, by reports that its logs make. -/
structure Document.ShowsEnd (reports : List String) (u : Transaction) (d : Document) : Prop where
  status : d.member? "status" = some (.string u.status.name)
  hasError : d.member? "errorEvent" = some (.bool true) ↔ u.errorEvent = true
  /-- A failure is shown with another status if an ordinary end is reported after it. -/
  takenBack : (d.member? "errorEvent" = some (.bool true) ∧
      d.member? "status" ≠ some (.string "fail")) ↔
    (∃ i ∈ failureIdentifiers, i ∈ reports) ∧ lastVerdict? reports = some writtenIdentifier

theorem TxStatus.name_eq_fail_iff {status : TxStatus} : status.name = "fail" ↔ status = .fail := by
  cases status <;> decide

theorem Transaction.EndsBy.showsEnd {reports : List String} {start : TxStatus} {u : Transaction}
    (h : u.EndsBy reports start) (index : String) (self : UInt32) :
    (u.document index self).ShowsEnd reports u := by
  have hstatus : (u.document index self).member? "status" = some (.string u.status.name) := by
    rw [member?_document, lookup_status]
  have herror : (u.document index self).member? "errorEvent" = some (.bool true) ↔
      u.errorEvent = true := by
    rw [member?_document, lookup_errorEvent]
    cases u.errorEvent <;> simp
  refine ⟨hstatus, herror, ?_⟩
  have hfail : (u.document index self).member? "status" ≠ some (.string "fail") ↔
      u.status ≠ .fail := by
    simp [hstatus, TxStatus.name_eq_fail_iff]
  rw [herror, hfail, ← h.hasError]
  exact and_congr_right fun hmarked => h.not_fail_iff hmarked

/-- Each transaction of a block ends by the last verdict of its logs, and its document shows
that. -/
theorem Indexer.yields_endsBy (x : Indexer) (store : TokenStore) (b : Block) :
    x.Yields store b fun docs =>
      ∀ front t later, (x.network.settle b x.importMode).transactions = front ++ t :: later →
        ∃ u d, (x.network.digest x.importMode b).settled.transactions[front.length]? = some u ∧
          docs[front.length]? = some d ∧ d.index = x.names.transactions ∧ d.id = t.hash ∧
          u.unread = t.unread ∧ u.EndsBy (reportsTo b.logs later t) t.status ∧
          d.ShowsEnd (reportsTo b.logs later t) u := by
  refine yields_of_documents fun tokens _ => ?_
  intro front t later ht
  obtain ⟨u, hu, hunread, hends⟩ := Network.exists_endsBy ht
  obtain ⟨rest, hdocs⟩ := (x.network.digest x.importMode b).exists_documents_eq tokens x.names
  have hhash : u.hash = t.hash :=
    (congrArg Transaction.hash hunread :)
  refine ⟨u, u.document x.names.transactions b.shard, hu, ?_, rfl, hhash, hunread, hends, ?_⟩
  · have hlength : front.length < (x.network.digest x.importMode b).settled.transactions.length :=
      (List.getElem?_eq_some_iff.mp hu).1
    rw [hdocs, List.getElem?_append_left (by rwa [List.length_map]), List.getElem?_map, hu]
    rfl
  · exact hends.showsEnd x.names.transactions b.shard

/-- The log of a transaction reports a failure and then an ordinary end, and the failure is taken
back: the document shows the mark together with another status. -/
theorem Indexer.yields_endsBy_of_failure_taken_back :
    let log : LogEntry :=
      { hash := "01"
        log := { events := [{ identifier := "signalError" }, { identifier := "writeLog" }] } }
    let b : Block :=
      { header := some {}
        miniBlocks := [⟨.transactions, 0, 0, [[1]]⟩]
        pool := some { transactions := .ofList [("01", {})], logs := [log] } }
    let x : Indexer := ⟨default, false, {}⟩
    reportsOf b.logs "01" = ["signalError", "writeLog"] ∧
      ∃ docs d, (x.process .empty b).result = .ok docs ∧ docs[0]? = some d ∧ d.id = "01" ∧
        d.member? "errorEvent" = some (.bool true) ∧
        d.member? "status" ≠ some (.string "fail") := by
  intro log b x
  obtain ⟨docs, hdocs⟩ := exists_process_result x (fun _ _ => ⟨[], rfl⟩) b
  have hreports : reportsOf b.logs "01" = ["signalError", "writeLog"] := by decide
  have hhashes : (x.network.settle b x.importMode).transactions.map (·.hash) = ["01"] := by decide
  obtain ⟨t, ht, hhash⟩ := List.map_eq_singleton_iff.mp hhashes
  -- for any block, so that nothing of this one is computed
  have hends := fun (b : Block) docs (hdocs : (x.process .empty b).result = .ok docs) =>
    (yields_endsBy x .empty b).of_result hdocs
  obtain ⟨u, d, -, hd, -, hid, -, -, hshows⟩ := hends b docs hdocs [] t [] ht
  have hreportsTo : reportsTo b.logs [] t = ["signalError", "writeLog"] := by
    rw [← hreports, ← hhash]
    rfl
  rw [hreportsTo] at hshows
  have htaken := hshows.takenBack.mpr ⟨⟨"signalError", by decide, by decide⟩, by decide⟩
  exact ⟨hreports, docs, d, hdocs, hd, hid.trans hhash, htaken⟩

end ChainIndex
