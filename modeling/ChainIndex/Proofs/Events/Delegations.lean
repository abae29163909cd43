import ChainIndex.Proofs.Events.Parts
import ChainIndex.Proofs.Table

/-!
# What is known of a delegation

In the metachain a delegation is known as the last event about it tells it, whatever earlier events
of the block have told (`Network.get?_delegations_readLogs`). So of what an event says about stakes
on their way back, or about those paid out, nothing is left once the delegation comes up again.

Each event is a source of at most one entry, and what is left of all of them is the table of their
entries. So the last event about a delegation is found like the last entry of a key, by
`lastValue?_flatMap`. What kinds of events there are is settled once, by
`Network.delegationOf?_cases`, and what an event says about funds is read off these cases.
-/

namespace ChainIndex

namespace Network

variable (n : Network) (stamp : BlockStamp)

/-! ### What one event tells -/

/-- The delegation that an event tells, if it is about one. -/
def toldDelegation? (e : LoggedEvent) : Option Delegation :=
  if (n.delegations stamp).lists e then n.delegationOf? stamp e else none

/-- A stake is sent on its way back by an event that names the fund. -/
def Undelegates (e : Event) : Prop :=
  e.identifier = undelegateIdentifier ∧ 5 ≤ e.topics.length

/-- Stakes are paid by an event that names the funds, and something is left at stake. -/
def Withdraws (e : Event) : Prop :=
  e.identifier = withdrawIdentifier ∧ 5 ≤ e.topics.length ∧ topicFlag (e.topic 4) = false

/-- The funds that an event pays out. -/
def paidFunds (e : Event) : List String :=
  (e.topics.drop 5).map Hex.encode

/-- The key of the delegation of somebody with the contract of a log. -/
def delegationKeyOf (e : LoggedEvent) : String :=
  n.addresses.encodeOrEmpty e.event.address ++ n.addresses.encodeOrEmpty e.contract

/-- An event is the last one of some logs about a delegation, and tells it. -/
def TellsLast (logs : List LogEntry) (e : LoggedEvent) (d : Delegation) : Prop :=
  ∃ before after, loggedEvents logs = before ++ e :: after ∧
    n.toldDelegation? stamp e = some d ∧
      ∀ e' ∈ after, ∀ d', n.toldDelegation? stamp e' = some d' → d'.key ≠ d.key

variable {n stamp} {e : LoggedEvent} {d : Delegation}

theorem delegationOf?_of_toldDelegation? (h : n.toldDelegation? stamp e = some d) :
    n.delegationOf? stamp e = some d := by
  unfold toldDelegation? at h
  split at h
  · exact h
  · cases h

/-- There are four kinds of events about delegations: payments of rewards that close one, payments
of stakes, stakes sent on their way back, and all others. -/
theorem delegationOf?_cases (h : n.delegationOf? stamp e = some d) :
    (e.event.identifier = claimIdentifier ∧
        d = { address := n.addresses.encodeOrEmpty e.event.address
              contract := n.addresses.encodeOrEmpty e.contract, isClosed := true }) ∨
      (e.event.identifier = withdrawIdentifier ∧ 5 ≤ e.event.topics.length ∧
        d = withdrawnFrom e.event (n.delegationBase stamp e)) ∨
      (Undelegates e.event ∧
        d = { n.delegationBase stamp e with unbonding := some (n.unbondingOf stamp e.event) }) ∨
      (¬ (e.event.identifier = withdrawIdentifier ∧ 5 ≤ e.event.topics.length) ∧
        ¬ Undelegates e.event ∧ d = n.delegationBase stamp e) := by
  unfold delegationOf? at h
  split at h
  · next hclaim =>
      unfold closingOf? at h
      split at h
      · exact .inl ⟨hclaim, (Option.some.inj h).symm⟩
      · cases h
  · split at h
    · cases h
    · dsimp only at h
      split at h
      · next hlong =>
          split at h
          · next hwithdraw => exact .inr (.inl ⟨hwithdraw, hlong, (Option.some.inj h).symm⟩)
          · next hwithdraw =>
              split at h
              · next hback =>
                  exact .inr (.inr (.inl ⟨⟨hback, hlong⟩, (Option.some.inj h).symm⟩))
              · next hback =>
                  exact .inr (.inr (.inr ⟨fun hw => hwithdraw hw.1, fun hu => hback hu.1,
                    (Option.some.inj h).symm⟩))
      · next hshort =>
          exact .inr (.inr (.inr ⟨fun hw => hshort hw.2, fun hu => hshort hu.2,
            (Option.some.inj h).symm⟩))

theorem Undelegates.not_of_identifier {e : Event} {identifier : String}
    (h : e.identifier = identifier) (hne : identifier ≠ undelegateIdentifier) :
    ¬ Undelegates e :=
  fun hu => hne (h.symm.trans hu.1)

/-- A delegation that stays has a stake on its way back if its event has sent one. -/
theorem unbonding_iff_of_told (h : n.delegationOf? stamp e = some d) {u : Unbonding} :
    d.isClosed = false ∧ d.unbonding = some u ↔
      Undelegates e.event ∧ n.unbondingOf stamp e.event = u := by
  rcases delegationOf?_cases h with ⟨hid, rfl⟩ | ⟨hid, -, rfl⟩ | ⟨hback, rfl⟩ | ⟨-, hback, rfl⟩
  · have hnot := Undelegates.not_of_identifier hid (by decide)
    simp [hnot]
  · have hnot := Undelegates.not_of_identifier hid (by decide)
    have hnone : (withdrawnFrom e.event (n.delegationBase stamp e)).unbonding = none := by
      unfold withdrawnFrom
      split <;> rfl
    simp [hnot, hnone]
  · simp [hback, delegationBase]
  · simp [hback, delegationBase]

/-- A delegation that stays has stakes paid if its event has paid them. -/
theorem withdrawn_iff_of_told (h : n.delegationOf? stamp e = some d) {ids : List String} :
    d.isClosed = false ∧ d.unbonding = none ∧ d.withdrawn = some ids ↔
      Withdraws e.event ∧ paidFunds e.event = ids := by
  unfold Withdraws
  rcases delegationOf?_cases h with ⟨hid, rfl⟩ | ⟨hid, hlong, rfl⟩ | ⟨hback, rfl⟩ | ⟨hno, -, rfl⟩
  · have hne : e.event.identifier ≠ withdrawIdentifier := by
      rw [hid]
      decide
    simp [hne]
  · unfold withdrawnFrom
    split
    · next hflag => simp [hflag]
    · next hflag => simp [hid, hlong, hflag, delegationBase, paidFunds]
  · have hne : e.event.identifier ≠ withdrawIdentifier := by
      rw [hback.1]
      decide
    simp [hne]
  · have hnot : ¬ (e.event.identifier = withdrawIdentifier ∧ 5 ≤ e.event.topics.length ∧
        topicFlag (e.event.topic 4) = false) :=
      fun hw => hno ⟨hw.1, hw.2.1⟩
    simp [hnot, delegationBase]

/-! ### All logs of a block -/

/-- One event: the table of delegations changes by the entry that the event is a source of. -/
theorem delegations_dispatch (hmeta : stamp.shard = metachainShard) (e : LoggedEvent)
    (r : Reading) :
    (EventFamily.dispatch (n.eventFamilies stamp) e r).findings.delegations =
      ((n.toldDelegation? stamp e).map fun d => (d.key, d)).toList.foldl
        (fun t entry => t.insert entry.1 entry.2) r.findings.delegations := by
  have howns := n.owns_delegations stamp
  unfold toldDelegation?
  by_cases hid : e.event.identifier ∈ (n.delegations stamp).identifiers
  · rw [howns.part_dispatch_of_mem (n.disjoint_eventFamilies stamp) hid,
      if_pos (EventFamily.lists_iff.mpr hid)]
    simp only [EventFamily.act, delegations, hmeta, ne_eq, not_true_eq_false, if_false]
    cases n.delegationOf? stamp e <;> rfl
  · rw [howns.part_dispatch_of_not_mem hid, if_neg (hid ∘ EventFamily.lists_iff.mp)]
    rfl

/-- The delegations of a block are those that its events tell, one after another. -/
theorem delegations_readLogs (hmeta : stamp.shard = metachainShard) (logs : List LogEntry)
    (txs : List Transaction) (results : List ContractResult) :
    (n.readLogs stamp logs txs results).findings.delegations =
      Table.ofList ((loggedEvents logs).flatMap fun e =>
        ((n.toldDelegation? stamp e).map fun d => (d.key, d)).toList) :=
  EventFamily.findings_readLogs_foldl (v := (·.delegations)) (delegations_dispatch hmeta)
    ⟨txs, results, {}⟩ logs

/-- A delegation is known as the last event about it tells it. -/
theorem get?_delegations_readLogs (hmeta : stamp.shard = metachainShard) {logs : List LogEntry}
    {txs : List Transaction} {results : List ContractResult} {key : String} :
    (n.readLogs stamp logs txs results).findings.delegations.get? key = some d ↔
      d.key = key ∧ ∃ e, n.TellsLast stamp logs e d := by
  have hone : ∀ e : LoggedEvent,
      lastValue? key ((n.toldDelegation? stamp e).map fun d => (d.key, d)).toList = some d ↔
        n.toldDelegation? stamp e = some d ∧ d.key = key := by
    intro e
    cases n.toldDelegation? stamp e with
    | none => simp
    | some d' =>
        by_cases hkey : d'.key = key
        · simp only [Option.map_some, Option.toList_some, lastValue?, hkey, if_true,
            Option.some.injEq]
          constructor
          · rintro rfl
            exact ⟨rfl, hkey⟩
          · exact fun h => h.1
        · simp only [Option.map_some, Option.toList_some, lastValue?, hkey, if_false,
            Option.some.injEq, reduceCtorEq, false_iff]
          rintro ⟨rfl, heq⟩
          exact hkey heq
  have hothers : ∀ e : LoggedEvent,
      key ∉ ((n.toldDelegation? stamp e).map fun d => (d.key, d)).toList.map Prod.fst ↔
        ∀ d', n.toldDelegation? stamp e = some d' → d'.key ≠ key := by
    intro e
    cases n.toldDelegation? stamp e with
    | none => simp
    | some d' => simp [eq_comm]
  rw [delegations_readLogs hmeta, Table.get?_ofList, lastValue?_flatMap]
  simp only [hone, hothers, TellsLast]
  constructor
  · rintro ⟨before, e, after, hlogs, ⟨htold, rfl⟩, hafter⟩
    exact ⟨rfl, e, before, after, hlogs, htold, hafter⟩
  · rintro ⟨rfl, e, before, after, hlogs, htold, hafter⟩
    exact ⟨before, e, after, hlogs, ⟨htold, rfl⟩, hafter⟩

end Network

end ChainIndex
