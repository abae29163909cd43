import ChainIndex.Proofs.Search.Delegations
import ChainIndex.Proofs.Text.Base64
import ChainIndex.Proofs.Text.Utf8

/-!
# The last effective event about a delegation

In the metachain the logs of a block leave one record for each delegation that their effective
events are about, and the last of these events decides whether it is closed. A closed record has no
stake and deletes what is stored, every other one updates it, both under the digest of the key. In
other shards the logs leave no record at all (`Network.readLogs_stakes`).

Whether an event is effective, and whether it closes, is said of the event alone, by its identifier
and its topics. The reader decides both on its way to a record, in several branches, so the work is
to show that it leaves a record for the effective events and no others
(`Network.isSome_toldDelegation?_iff`), and a closed one for those that close
(`Network.isClosed_iff_of_delegationOf?`). That the last event wins is then a fact about tables.
Keys are compared as texts, but documents are stored under digests of them. So two records meet in
one document exactly if their digests collide, and nothing is said about whether they can.
-/

namespace ChainIndex

/-! ### Effective events -/

/-- The identifiers of the events that change a stake. -/
def stakeIdentifiers : List String :=
  ["delegate", "unDelegate", "withdraw", "reDelegateRewards"]

/-- An event pays rewards and tells that nothing is left at stake. -/
def Event.ClaimsAll (e : Event) : Prop :=
  e.identifier = "claimRewards" ∧ 2 ≤ e.topics.length ∧ topicFlag (e.topic 1) = true

/-- An event leaves a record of a delegation. -/
def Event.IsEffective (e : Event) : Prop :=
  e.ClaimsAll ∨ e.identifier ∈ stakeIdentifiers ∧ 4 ≤ e.topics.length

/-- An event leaves a record that is closed: it claims all, or it withdraws all. -/
def Event.Closes (e : Event) : Prop :=
  e.ClaimsAll ∨ e.identifier = "withdraw" ∧ 5 ≤ e.topics.length ∧ topicFlag (e.topic 4) = true

instance (e : Event) : Decidable e.ClaimsAll :=
  inferInstanceAs (Decidable (_ ∧ _))

instance (e : Event) : Decidable e.IsEffective :=
  inferInstanceAs (Decidable (_ ∨ _))

instance (e : Event) : Decidable e.Closes :=
  inferInstanceAs (Decidable (_ ∨ _))

/-- The contract that an event is about: the fifth topic of a new stake, if it has one, and
otherwise the contract of the log. -/
def LoggedEvent.stakedWith (e : LoggedEvent) : Bytes :=
  if e.event.identifier = "delegate" ∧ 5 ≤ e.event.topics.length then e.event.topic 4
  else e.contract

/-- A record deletes what is stored under its identifier if it is closed, and updates it
otherwise. -/
inductive Delegation.Writes (index : String) (d : Delegation) : Document → Prop
  | deleted (closed : d.isClosed = true) : Writes index d (.delete index d.id)
  | updated (stays : d.isClosed = false) : Writes index d (.update index d.id d.script d.toJson)

namespace Delegation

theorem writes_document (index : String) (d : Delegation) : d.Writes index (d.document index) := by
  obtain ⟨hclosed, h⟩ | ⟨hstays, h⟩ := d.document_cases index <;> rw [h]
  · exact .deleted hclosed
  · exact .updated hstays

/-- What is stored under one identifier has one digest. -/
theorem id_eq_iff {d d' : Delegation} :
    d.id = d'.id ↔ Sha256.digest (Utf8.encode d.key) = Sha256.digest (Utf8.encode d'.key) :=
  ⟨Base64.encode_injective, congrArg Base64.encode⟩

end Delegation

namespace Network

variable (n : Network) (stamp : BlockStamp)

/-- The key of the delegation that an event is about. -/
def stakeKey (e : LoggedEvent) : String :=
  n.addresses.encodeOrEmpty e.event.address ++ n.addresses.encodeOrEmpty e.stakedWith

/-- An event is the last effective one of some logs about the delegation with a key. -/
def IsLastEffective (logs : List LogEntry) (key : String) (e : LoggedEvent) : Prop :=
  ∃ before after, loggedEvents logs = before ++ e :: after ∧
    e.event.IsEffective ∧ n.stakeKey e = key ∧
      ∀ e' ∈ after, e'.event.IsEffective → n.stakeKey e' ≠ key

/-- A table has the records of the delegations that the effective events of some logs are about. -/
structure ShowsStakes (logs : List LogEntry) (t : Table Delegation) : Prop where
  /-- Records stand under their keys, in order, and so no two of them under one key. -/
  keyed : t.keys = t.values.map (·.key)
  ascending : t.keys.Pairwise (· < ·)
  keys : ∀ key, key ∈ t.keys ↔
    ∃ e ∈ loggedEvents logs, e.event.IsEffective ∧ n.stakeKey e = key
  /-- The last effective event with the key leaves the record and decides whether it is closed. -/
  last : ∀ d ∈ t.values, ∃ e, n.IsLastEffective logs d.key e ∧
    n.delegationOf? stamp e = some d ∧ (d.isClosed = true ↔ e.event.Closes)
  emptied : ∀ d ∈ t.values, d.isClosed = true → d.stake = ""
  documents : ∀ index,
    List.Forall₂ (Delegation.Writes index) t.values (delegationDocuments index t)
  /-- Two records are stored under one identifier only if the digests of their keys collide. -/
  ids : ∀ d ∈ t.values, ∀ d' ∈ t.values,
    d.id = d'.id ↔ Sha256.digest (Utf8.encode d.key) = Sha256.digest (Utf8.encode d'.key)
  distinct :
    (∀ key ∈ t.keys, ∀ key' ∈ t.keys,
      Sha256.digest (Utf8.encode key) = Sha256.digest (Utf8.encode key') → key = key') →
      (t.values.map (·.id)).Nodup

/-! ### What an effective event leaves

The cases are those of the reader: claims come first, then withdrawals, and the rest differs only in
what is shown beside the stake. -/

variable {n stamp} {logs : List LogEntry} {e : LoggedEvent} {d : Delegation}

theorem lists_delegations_iff :
    (n.delegations stamp).lists e = true ↔
      e.event.identifier ∈ stakeIdentifiers ∨ e.event.identifier = claimIdentifier := by
  rw [EventFamily.lists_iff]
  simp only [delegations, stakeIdentifiers, delegateIdentifier, undelegateIdentifier,
    withdrawIdentifier, List.mem_cons, List.not_mem_nil, or_false, or_assoc]

/-- An event tells of a delegation if and only if it is effective. -/
theorem isSome_toldDelegation?_iff (n : Network) (stamp : BlockStamp) (e : LoggedEvent) :
    (n.toldDelegation? stamp e).isSome = true ↔ e.event.IsEffective := by
  unfold toldDelegation?
  rw [Event.IsEffective, Event.ClaimsAll]
  by_cases hclaim : e.event.identifier = claimIdentifier
  · have hother : claimIdentifier ∉ stakeIdentifiers := by decide
    rw [if_pos (lists_delegations_iff.mpr (.inr hclaim)), delegationOf?, if_pos hclaim, closingOf?]
    simp only [hclaim, hother, false_and, or_false]
    split
    · next htells => simpa [claimIdentifier] using htells
    · next htells => simpa [claimIdentifier] using htells
  · have hother : ¬ e.event.identifier = "claimRewards" := hclaim
    simp only [hother, false_and, false_or]
    by_cases hstake : e.event.identifier ∈ stakeIdentifiers
    · rw [if_pos (lists_delegations_iff.mpr (.inl hstake)), delegationOf?, if_neg hclaim]
      by_cases hlong : e.event.topics.length < 4
      · simp [hstake, hlong]
      · rw [if_neg hlong]
        dsimp only
        have hfour : 4 ≤ e.event.topics.length := Nat.le_of_not_lt hlong
        split
        · split
          · simp [hstake, hfour]
          · split <;> simp [hstake, hfour]
        · simp [hstake, hfour]
    · have hunlisted : ¬ (n.delegations stamp).lists e = true := fun hlists =>
        (lists_delegations_iff.mp hlists).elim hstake hclaim
      rw [if_neg hunlisted]
      simp [hstake]

/-- The record that an event leaves has the key of the event. -/
theorem key_of_delegationOf? (h : n.delegationOf? stamp e = some d) : d.key = n.stakeKey e := by
  have hbase : (n.delegationBase stamp e).key = n.stakeKey e := by
    rw [Delegation.key, stakeKey, delegationBase, delegationContract, LoggedEvent.stakedWith]
    rw [apply_ite n.addresses.encodeOrEmpty]
    rfl
  rcases delegationOf?_cases h with ⟨hid, rfl⟩ | ⟨-, -, rfl⟩ | ⟨-, rfl⟩ | ⟨-, -, rfl⟩
  -- a claim is about the contract of the log, as it is no new stake
  · have hother : ¬ (e.event.identifier = "delegate" ∧ 5 ≤ e.event.topics.length) := by
      rw [hid]
      exact fun hnamed => absurd hnamed.1 (by decide)
    rw [Delegation.key, stakeKey, LoggedEvent.stakedWith, if_neg hother]
  · unfold withdrawnFrom
    split
    · exact hbase
    · exact hbase
  · exact hbase
  · exact hbase

/-- Of the effective events that claim nothing, only payments of stakes can close a record. -/
theorem closes_iff_of_not_claimsAll (hclaims : ¬ e.event.ClaimsAll) :
    e.event.Closes ↔ (e.event.identifier = withdrawIdentifier ∧ 5 ≤ e.event.topics.length) ∧
      topicFlag (e.event.topic 4) = true := by
  rw [Event.Closes, or_iff_right hclaims, and_assoc]
  rfl

/-- The record that an effective event leaves is closed if and only if the event closes it. -/
theorem isClosed_iff_of_delegationOf? (heffective : e.event.IsEffective)
    (h : n.delegationOf? stamp e = some d) : d.isClosed = true ↔ e.event.Closes := by
  by_cases hclaims : e.event.ClaimsAll
  · have htells : 2 ≤ e.event.topics.length ∧ topicFlag (e.event.topic 1) = true := hclaims.2
    have hid : e.event.identifier = claimIdentifier := hclaims.1
    rw [delegationOf?, if_pos hid, closingOf?, if_pos htells] at h
    cases h
    exact iff_of_true rfl (.inl hclaims)
  · have hstake := (heffective.resolve_left hclaims).1
    rw [closes_iff_of_not_claimsAll hclaims]
    rcases delegationOf?_cases h with ⟨hid, -⟩ | ⟨hid, hlong, rfl⟩ | ⟨hback, rfl⟩ | ⟨hno, -, rfl⟩
    · rw [hid] at hstake
      exact absurd hstake (by decide)
    · rw [and_iff_right ⟨hid, hlong⟩]
      unfold withdrawnFrom
      split
      · next hflag => exact iff_of_true rfl hflag
      · next hflag => exact iff_of_false Bool.false_ne_true hflag
    · refine iff_of_false Bool.false_ne_true ?_
      rintro ⟨⟨hid, -⟩, -⟩
      exact absurd (hback.1.symm.trans hid) (by decide)
    · exact iff_of_false Bool.false_ne_true fun hcloses => hno hcloses.1

/-- Nothing is at stake in a record that is closed. -/
theorem stake_of_isClosed (h : n.delegationOf? stamp e = some d) (hclosed : d.isClosed = true) :
    d.stake = "" := by
  rcases delegationOf?_cases h with ⟨-, rfl⟩ | ⟨-, -, rfl⟩ | ⟨-, rfl⟩ | ⟨-, -, rfl⟩
  · rfl
  · unfold withdrawnFrom at hclosed ⊢
    split at hclosed
    · next hflag => rw [if_pos hflag]
    · cases hclosed
  · cases hclosed
  · cases hclosed

/-! ### The last one -/

theorem isLastEffective_of_tellsLast (h : n.TellsLast stamp logs e d) :
    n.IsLastEffective logs d.key e := by
  obtain ⟨before, after, hlogs, htold, hafter⟩ := h
  refine ⟨before, after, hlogs, ?_, ?_, ?_⟩
  · rw [← n.isSome_toldDelegation?_iff stamp e, htold]
    rfl
  · exact (key_of_delegationOf? (delegationOf?_of_toldDelegation? htold)).symm
  · intro e' he' heffective
    obtain ⟨d', hd'⟩ := Option.isSome_iff_exists.mp
      ((n.isSome_toldDelegation?_iff stamp e').mpr heffective)
    rw [← key_of_delegationOf? (delegationOf?_of_toldDelegation? hd')]
    exact hafter e' he' d' hd'

theorem IsLastEffective.isEffective {key : String} (h : n.IsLastEffective logs key e) :
    e.event.IsEffective := by
  obtain ⟨-, -, -, heffective, -⟩ := h
  exact heffective

/-! ### The records of a block -/

/-- In other shards no event is about a delegation. -/
theorem delegations_readLogs_of_ne (hshard : stamp.shard ≠ metachainShard) (logs : List LogEntry)
    (txs : List Transaction) (results : List ContractResult) :
    (n.readLogs stamp logs txs results).findings.delegations = .empty := by
  have howns := n.owns_delegations stamp
  refine EventFamily.findings_readLogs_foldl (v := (·.delegations)) (f := fun _ => ([] : List Unit))
    (g := fun t _ => t) ?_ ⟨txs, results, {}⟩ logs |>.trans ?_
  · intro e r
    by_cases hid : e.event.identifier ∈ (n.delegations stamp).identifiers
    · rw [howns.part_dispatch_of_mem (n.disjoint_eventFamilies stamp) hid]
      simp only [EventFamily.act, delegations, if_pos hshard]
      rfl
    · exact howns.part_dispatch_of_not_mem hid
  · simp

theorem mem_keys_delegations_iff (hmeta : stamp.shard = metachainShard) {logs : List LogEntry}
    {txs : List Transaction} {results : List ContractResult} {key : String} :
    key ∈ (n.readLogs stamp logs txs results).findings.delegations.keys ↔
      ∃ e ∈ loggedEvents logs, e.event.IsEffective ∧ n.stakeKey e = key := by
  rw [delegations_readLogs hmeta, Table.mem_keys_ofList]
  simp only [List.map_flatMap, List.mem_flatMap, List.mem_map, Option.mem_toList]
  refine exists_congr fun e => and_congr_right fun _ => ?_
  constructor
  · rintro ⟨entry, hentry, rfl⟩
    obtain ⟨d, hd, rfl⟩ := Option.map_eq_some_iff.mp hentry
    refine ⟨(n.isSome_toldDelegation?_iff stamp e).mp (Option.isSome_of_mem hd), ?_⟩
    exact (key_of_delegationOf? (delegationOf?_of_toldDelegation? hd)).symm
  · rintro ⟨heffective, rfl⟩
    obtain ⟨d, hd⟩ := Option.isSome_iff_exists.mp
      ((n.isSome_toldDelegation?_iff stamp e).mpr heffective)
    refine ⟨(d.key, d), by rw [hd]; rfl, ?_⟩
    exact key_of_delegationOf? (delegationOf?_of_toldDelegation? hd)

/-! ### Main result -/

/-- In shards other than the metachain, logs leave no record of a delegation. In the metachain they
leave one for each delegation that an effective event is about, closed as the last of these events
says, and each record makes one document. -/
theorem readLogs_stakes (n : Network) (stamp : BlockStamp) (logs : List LogEntry)
    (txs : List Transaction) (results : List ContractResult) :
    let t := (n.readLogs stamp logs txs results).findings.delegations
    (stamp.shard ≠ metachainShard → t = .empty) ∧
      (stamp.shard = metachainShard → n.ShowsStakes stamp logs t) := by
  refine ⟨fun hshard => delegations_readLogs_of_ne hshard logs txs results, fun hmeta => ?_⟩
  have hget : ∀ key d, (n.readLogs stamp logs txs results).findings.delegations.get? key = some d ↔
      d.key = key ∧ ∃ e, n.TellsLast stamp logs e d :=
    fun key d => get?_delegations_readLogs hmeta
  have htold : ∀ d ∈ (n.readLogs stamp logs txs results).findings.delegations.values,
      ∃ e, n.TellsLast stamp logs e d := by
    intro d hd
    obtain ⟨key, hkey⟩ := Table.mem_values_iff.mp hd
    exact ((hget key d).mp hkey).2
  have hkeyed : (n.readLogs stamp logs txs results).findings.delegations.keys =
      (n.readLogs stamp logs txs results).findings.delegations.values.map (·.key) :=
    (Table.map_values fun key d hd => ((hget key d).mp hd).1).symm
  refine ⟨hkeyed, Table.pairwise_keys _, fun key => mem_keys_delegations_iff hmeta, ?_, ?_, ?_, ?_,
    ?_⟩
  · intro d hd
    obtain ⟨e, htells⟩ := htold d hd
    have hlast := isLastEffective_of_tellsLast htells
    have hleft := delegationOf?_of_tellsLast htells
    exact ⟨e, hlast, hleft, isClosed_iff_of_delegationOf? hlast.isEffective hleft⟩
  · intro d hd hclosed
    obtain ⟨e, htells⟩ := htold d hd
    exact stake_of_isClosed (delegationOf?_of_tellsLast htells) hclosed
  · intro index
    rw [delegationDocuments, List.forall₂_map_right_iff, List.forall₂_same]
    exact fun d _ => d.writes_document index
  · exact fun d _ d' _ => Delegation.id_eq_iff
  -- records with one identifier have keys with one digest, and keys are distinct
  · intro hcollisions
    have hnodup := Table.nodup_keys (n.readLogs stamp logs txs results).findings.delegations
    rw [hkeyed] at hnodup hcollisions
    refine hnodup.of_map.map_on fun d hd d' hd' hid => ?_
    refine List.inj_on_of_nodup_map hnodup hd hd' ?_
    exact hcollisions _ (List.mem_map_of_mem hd) _ (List.mem_map_of_mem hd')
      (Delegation.id_eq_iff.mp hid)

/-- Somebody delegates to a contract that the event names and then claims all rewards from it. In
the metachain that leaves one record, which is closed, and elsewhere none. -/
theorem readLogs_stakes_of_claim_after_stake :
    let stakes : Event :=
      { address := [1], identifier := "delegate", topics := [[5], [5], [], [], [2]] }
    let claims : Event :=
      { address := [1], identifier := "claimRewards", topics := [[9], Utf8.encode "true"] }
    let logs : List LogEntry := [⟨"aa", ⟨[3], [stakes]⟩⟩, ⟨"bb", ⟨[2], [claims]⟩⟩]
    let n : Network := default
    ((n.readLogs {} logs [] []).findings.delegations = .empty) ∧
      ∃ d ∈ (n.readLogs { shard := metachainShard } logs [] []).findings.delegations.values,
        d.key = "0102" ∧ d.isClosed = true ∧ d.stake = "" := by
  intro stakes claims logs n
  refine ⟨(readLogs_stakes n {} logs [] []).1 (by decide), ?_⟩
  have hshows := (readLogs_stakes n { shard := metachainShard } logs [] []).2 rfl
  have hevents : loggedEvents logs = [⟨"aa", [3], stakes⟩, ⟨"bb", [2], claims⟩] := rfl
  have hclaims : claims.ClaimsAll := by decide
  have hmem := (hshows.keys "0102").mpr ⟨⟨"bb", [2], claims⟩, by simp [hevents], .inl hclaims, rfl⟩
  rw [hshows.keyed] at hmem
  obtain ⟨d, hd, hkey⟩ := List.mem_map.mp hmem
  obtain ⟨e, ⟨before, after, hsplit, -, -, hlast⟩, -, hclosed⟩ := hshows.last d hd
  -- the claim is about the delegation, so nothing but the claim is the last event
  have he : e = ⟨"bb", [2], claims⟩ := by
    rw [hevents] at hsplit
    rcases before with - | ⟨e', before⟩
    · obtain ⟨-, rfl⟩ := List.cons.inj hsplit
      exact absurd hkey.symm (hlast _ (List.mem_singleton_self _) (.inl hclaims))
    · rcases before with - | ⟨e'', before⟩
      · exact (List.cons.inj (List.cons.inj hsplit).2).1.symm
      · exact absurd (List.cons.inj (List.cons.inj hsplit).2).2 (by simp)
  have hends : d.isClosed = true := hclosed.mpr (by rw [he]; exact .inl hclaims)
  exact ⟨d, hd, hkey, hends, hshows.emptied d hd hends⟩

end Network

end ChainIndex
