import ChainIndex.Proofs.Events.Delegations
import ChainIndex.Proofs.Indexer
import ChainIndex.Proofs.Search.Index

/-!
# The documents about delegations

A block of the metachain writes one document for each delegation that its events are about, and the
document says what the last of these events has changed (`Indexer.yields_delegations`). The scripts
for stakes on their way back and for stakes paid out carry changes only, so a change is lost when
the block has a later event about the same delegation that does not tell it again.

The table of delegations has one place for each key, and a later event puts its record there without
a look at the one before. So every question about a document is one about the last event with its
key (`Network.TellsLast`). A change is asked for in the script, which the events of other kinds
leave out: that a document appends or removes something is turned into what the record holds, and
from there into what its event is.
-/

namespace ChainIndex

/-! ### What a document about a delegation says -/

namespace Delegation

/-- The document of a delegation adds a stake to those on their way back. -/
def Appends (d : Delegation) (u : Unbonding) : Prop :=
  ∀ index, d.document index =
    .update index d.id (.appendUnbonding d.stake d.stakeNum d.timestamp u) d.toJson

/-- The document of a delegation takes stakes off those on their way back. -/
def Removes (d : Delegation) (ids : List String) : Prop :=
  ∀ index, d.document index =
    .update index d.id (.removeWithdrawn d.stake d.stakeNum d.timestamp ids) d.toJson

variable {d : Delegation}

theorem document_eq_update_iff {script : UpdateScript} :
    (∀ index, d.document index = .update index d.id script d.toJson) ↔
      d.isClosed = false ∧ d.script = script := by
  constructor
  · intro h
    obtain ⟨-, hdocument⟩ | ⟨hstays, hdocument⟩ := d.document_cases ""
    · exact nomatch hdocument.symm.trans (h "")
    · exact ⟨hstays, (Action.update.inj (congrArg Document.action (hdocument.symm.trans (h "")))).1⟩
  · rintro ⟨hstays, rfl⟩ index
    obtain ⟨hclosed, -⟩ | ⟨-, hdocument⟩ := d.document_cases index
    · exact nomatch hstays.symm.trans hclosed
    · exact hdocument

theorem appends_iff {u : Unbonding} :
    d.Appends u ↔ d.isClosed = false ∧ d.unbonding = some u := by
  rw [Appends, document_eq_update_iff, script]
  cases d.unbonding with
  | none => cases d.withdrawn <;> simp
  | some v => simp

theorem appends_of_action {index stake : String} {stakeNum : Binary64} {time : UInt64}
    {u : Unbonding} {body : Json}
    (h : (d.document index).action = .update (.appendUnbonding stake stakeNum time u) body) :
    d.Appends u := by
  rw [appends_iff]
  obtain ⟨-, hdocument⟩ | ⟨hstays, hdocument⟩ := d.document_cases index
  · rw [hdocument] at h
    exact nomatch h
  · rw [hdocument] at h
    obtain ⟨hscript, -⟩ := Action.update.inj h
    obtain ⟨v, hv, hs⟩ | ⟨_, -, -, hs⟩ | ⟨-, -, hs⟩ := d.script_cases
    · rw [hs] at hscript
      obtain ⟨-, -, -, rfl⟩ := UpdateScript.appendUnbonding.inj hscript
      exact ⟨hstays, hv⟩
    · exact nomatch hs.symm.trans hscript
    · exact nomatch hs.symm.trans hscript

theorem removes_iff {ids : List String} :
    d.Removes ids ↔ d.isClosed = false ∧ d.unbonding = none ∧ d.withdrawn = some ids := by
  rw [Removes, document_eq_update_iff, script]
  cases d.unbonding with
  | none => cases d.withdrawn <;> simp
  | some v => simp

end Delegation

/-! ### What a block shows of delegations

A stake may be told although its own event is not the last one, if the last one tells the same. So
the conditions compare what two events say, and not their places. -/

namespace Network

/-- Some delegations are those of a block of the metachain. -/
structure ShowsDelegations (n : Network) (b : Block) (ds : List Delegation) : Prop where
  ascending : (ds.map (·.key)).Pairwise (· < ·)
  /-- There is one for each delegation that events are about, as the last of these events tells
  it. -/
  last : ∀ d, d ∈ ds ↔ ∃ e, n.TellsLast b.stamp b.logs e d
  /-- A stake sent on its way back is told if and only if the last event about the delegation sends
  the same stake. -/
  unbondings : ∀ e ∈ loggedEvents b.logs, Undelegates e.event →
    ((∃ d ∈ ds, d.key = n.delegationKeyOf e ∧ d.Appends (n.unbondingOf b.stamp e.event)) ↔
      ∃ e' d, n.TellsLast b.stamp b.logs e' d ∧ d.key = n.delegationKeyOf e ∧
        Undelegates e'.event ∧
        n.unbondingOf b.stamp e'.event = n.unbondingOf b.stamp e.event)
  /-- Stakes paid out are told if and only if the last event about the delegation pays them too. -/
  withdrawals : ∀ e ∈ loggedEvents b.logs, Withdraws e.event →
    ((∃ d ∈ ds, d.key = n.delegationKeyOf e ∧
        ∃ ids, d.Removes ids ∧ paidFunds e.event ⊆ ids) ↔
      ∃ e' d, n.TellsLast b.stamp b.logs e' d ∧ d.key = n.delegationKeyOf e ∧
        Withdraws e'.event ∧ paidFunds e.event ⊆ paidFunds e'.event)

variable {n : Network} {stamp : BlockStamp} {logs : List LogEntry} {e : LoggedEvent}
  {d : Delegation}

theorem delegationOf?_of_tellsLast (h : n.TellsLast stamp logs e d) :
    n.delegationOf? stamp e = some d := by
  obtain ⟨-, -, -, htold, -⟩ := h
  exact delegationOf?_of_toldDelegation? htold

theorem TellsLast.appends_iff (h : n.TellsLast stamp logs e d) {u : Unbonding} :
    d.Appends u ↔ Undelegates e.event ∧ n.unbondingOf stamp e.event = u := by
  rw [Delegation.appends_iff]
  exact unbonding_iff_of_told (delegationOf?_of_tellsLast h)

theorem TellsLast.removes_iff (h : n.TellsLast stamp logs e d) {ids : List String} :
    d.Removes ids ↔ Withdraws e.event ∧ paidFunds e.event = ids := by
  rw [Delegation.removes_iff]
  exact withdrawn_iff_of_told (delegationOf?_of_tellsLast h)

theorem showsDelegations_digest (n : Network) (importMode : Bool) {b : Block}
    (hmeta : b.shard = metachainShard) :
    n.ShowsDelegations b (n.digest importMode b).findings.delegations.values := by
  have hstamp : b.stamp.shard = metachainShard := hmeta
  have hget : ∀ key d, (n.digest importMode b).findings.delegations.get? key = some d ↔
      d.key = key ∧ ∃ e, n.TellsLast b.stamp b.logs e d :=
    fun key d => get?_delegations_readLogs hstamp
  have hlast : ∀ d, d ∈ (n.digest importMode b).findings.delegations.values ↔
      ∃ e, n.TellsLast b.stamp b.logs e d := by
    intro d
    rw [Table.mem_values_iff]
    constructor
    · rintro ⟨key, hd⟩
      exact ((hget key d).mp hd).2
    · intro hd
      exact ⟨d.key, (hget _ d).mpr ⟨rfl, hd⟩⟩
  refine ⟨?_, hlast, fun e he hback => ?_, fun e he hpaid => ?_⟩
  · rw [Table.map_values fun key d hd => ((hget key d).mp hd).1]
    exact Table.pairwise_keys _
  · constructor
    · rintro ⟨d, hd, hkey, happends⟩
      obtain ⟨e', htells⟩ := (hlast d).mp hd
      obtain ⟨hback', hsame⟩ := htells.appends_iff.mp happends
      exact ⟨e', d, htells, hkey, hback', hsame⟩
    · rintro ⟨e', d, htells, hkey, hback', hsame⟩
      exact ⟨d, (hlast d).mpr ⟨e', htells⟩, hkey, htells.appends_iff.mpr ⟨hback', hsame⟩⟩
  · constructor
    · rintro ⟨d, hd, hkey, ids, hremoves, hids⟩
      obtain ⟨e', htells⟩ := (hlast d).mp hd
      obtain ⟨hpaid', rfl⟩ := htells.removes_iff.mp hremoves
      exact ⟨e', d, htells, hkey, hpaid', hids⟩
    · rintro ⟨e', d, htells, hkey, hpaid', hids⟩
      exact ⟨d, (hlast d).mpr ⟨e', htells⟩, hkey, _, htells.removes_iff.mpr ⟨hpaid', rfl⟩, hids⟩

end Network

/-! ### The documents -/

/-- The names of all indices but that of delegations. -/
def IndexNames.toListWithoutDelegators (names : IndexNames) : List String :=
  [names.transactions, names.results, names.receipts, names.accounts, names.accountsHistory,
    names.tokenAccounts, names.tokenAccountsHistory, names.tokens, names.esdts, names.deploys,
    names.logs, names.events, names.tags, names.operations]

theorem Digested.documents_eq_delegators (d : Digested) (tokens : ResolvedTokens)
    (names : IndexNames) :
    ∃ before after,
      d.documents tokens names =
        before ++ delegationDocuments names.delegators d.findings.delegations ++ after ∧
      ∀ e ∈ before ++ after, e.index ∈ names.toListWithoutDelegators := by
  have hmiddle : delegationDocuments names.delegators d.findings.delegations =
      (((d.sections tokens names).drop 18).take 1).flatMap Prod.snd := by
    simp only [sections, List.take_succ_cons, List.take_zero, List.drop_succ_cons,
      List.drop_zero, List.flatMap_cons, List.flatMap_nil, List.append_nil]
  rw [hmiddle]
  refine d.documents_eq_around tokens names 18 1 ?_
  simp [sections, IndexNames.toListWithoutDelegators]

/-- A block of the metachain writes one document for each delegation that its events are about, and
the document tells what the last of these events has changed, and nothing that only earlier ones
have. -/
theorem Indexer.yields_delegations (x : Indexer) (store : TokenStore) {b : Block}
    (hmeta : b.shard = metachainShard) :
    x.Yields store b fun docs =>
      ∃ before after, ∃ ds : List Delegation,
        docs = before ++ ds.map (·.document x.names.delegators) ++ after ∧
          (∀ d ∈ before ++ after, d.index ∈ x.names.toListWithoutDelegators) ∧
          x.network.ShowsDelegations b ds := by
  refine yields_of_documents fun tokens _ => ?_
  obtain ⟨before, after, hdocs, hothers⟩ :=
    (x.network.digest x.importMode b).documents_eq_delegators tokens x.names
  exact ⟨before, after, _, hdocs, hothers, x.network.showsDelegations_digest x.importMode hmeta⟩

/-- Of two stakes that somebody sends on their way back in one block, the first is told by no
document. -/
theorem Indexer.yields_delegations_of_two_unbondings :
    let sends (fund value : UInt8) : Event :=
      { address := [1], identifier := "unDelegate", topics := [[value], [7], [], [], [fund]] }
    let b : Block :=
      { shard := metachainShard
        pool := some { logs := [⟨"aa", ⟨[2], [sends 10 2, sends 11 3]⟩⟩] } }
    ∃ docs, ((⟨default, false, {}⟩ : Indexer).process .empty b).result = .ok docs ∧
      ∀ d ∈ docs, d.index = "delegators" → ∀ stake stakeNum time u body,
        d.action = .update (.appendUnbonding stake stakeNum time u) body → u.id ≠ "0a" := by
  intro sends b
  obtain ⟨docs, hdocs⟩ := exists_process_result ⟨default, false, {}⟩ (fun _ _ => ⟨[], rfl⟩) b
  have hmeta : b.shard = metachainShard := rfl
  have hlogs : loggedEvents b.logs = [⟨"aa", [2], sends 10 2⟩, ⟨"aa", [2], sends 11 3⟩] := rfl
  clear_value b
  have hyields := yields_delegations ⟨default, false, {}⟩ .empty hmeta
  obtain ⟨before, after, ds, rfl, hothers, hshows⟩ := hyields.of_result hdocs
  refine ⟨_, hdocs, ?_⟩
  intro d hd hindex stake stakeNum time u body haction
  rw [List.append_assoc, List.mem_append, List.mem_append, ← or_assoc, or_right_comm] at hd
  rcases hd with hd | hd
  · have hmem := hothers d (List.mem_append.mpr hd)
    rw [hindex] at hmem
    exact absurd hmem (by decide)
  · obtain ⟨told, htold, rfl⟩ := List.mem_map.mp hd
    obtain ⟨e, htells⟩ := (hshows.last told).mp htold
    obtain ⟨-, rfl⟩ := htells.appends_iff.mp (Delegation.appends_of_action haction)
    obtain ⟨front, back, hevents, hfirst, hlast⟩ := htells
    rw [hlogs] at hevents
    -- the event is the second one, as the first has the same delegation
    rcases front with - | ⟨e', front⟩
    · obtain ⟨rfl, rfl⟩ := List.cons.inj hevents
      have hother := hlast ⟨"aa", [2], sends 11 3⟩ (List.mem_singleton_self _) _ rfl
      cases hfirst
      exact absurd rfl hother
    · rcases front with - | ⟨e'', front⟩
      · obtain ⟨rfl, -⟩ := List.cons.inj (List.cons.inj hevents).2
        show Hex.encode [11] ≠ "0a"
        decide
      · have hempty := (List.cons.inj (List.cons.inj hevents).2).2
        exact absurd hempty (by simp)

end ChainIndex
