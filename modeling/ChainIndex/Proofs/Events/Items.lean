import ChainIndex.Proofs.Events.Parts

/-!
# What events tell of items

Three parts of the findings are about items: their changes, the items created and the items removed.
Each of them collects what every event tells on its own, in the order of the events
(`Network.itemUpdates_readLogs`, `Network.created_readLogs`, `Network.removed_readLogs`).

What an event tells is spelled out here by its own conditions, and not by the run of the family that
reads it: an event of another family tells nothing, and so it can be asked of every event of a
block. One event may remove an item twice, for the account that acts and for the holder, if both are
of the shard. The registry has one entry for it all the same.
-/

namespace ChainIndex

namespace Network

variable (n : Network) (stamp : BlockStamp)

/-! ### What one event tells -/

/-- The change of an item that an event tells. -/
def itemUpdate? (e : Event) : Option ItemUpdate :=
  if e.identifier = pauseIdentifier ∨ e.identifier = unpauseIdentifier then pauseOf? e
  else if e.identifier ∉ n.itemUpdates.identifiers ∨ e.topics.length < 4 ∨
      n.addresses.encodeOrEmpty e.address = "" ∨ Bytes.toUInt64 (e.topic 1) = 0 then none
  else
    some (n.itemUpdateOf (n.addresses.encodeOrEmpty e.address) (Bytes.toUInt64 (e.topic 1)) e)

/-- An event is about an item that it creates, burns or wipes. -/
def IsOfItem (e : Event) : Prop :=
  e.identifier ∈ (n.items stamp).identifiers ∧ 2 ≤ e.topics.length ∧
    Bytes.toUInt64 (e.topic 1) ≠ 0

instance (e : Event) : Decidable (n.IsOfItem stamp e) :=
  inferInstanceAs (Decidable (_ ∧ _ ∧ _))

/-- The items that an event creates, as a shard notes it. -/
def creationsOf (e : Event) : List TokenRecord :=
  if n.IsOfItem stamp e ∧ n.sharding.shardOf e.address = stamp.shard ∧
      e.identifier = createIdentifier then
    (n.createdItemOf? stamp e).toList
  else []

/-- The items that an event removes, as a shard notes it: that of the account that acts and that of
the holder. -/
def removalsOf (e : Event) : List TokenRecord :=
  (if n.IsOfItem stamp e ∧ n.sharding.shardOf e.address = stamp.shard ∧
      e.identifier ≠ createIdentifier then [itemOf stamp e] else []) ++
    if n.IsOfItem stamp e ∧ e.identifier = wipeIdentifier ∧ 4 ≤ e.topics.length ∧
      n.sharding.shardOf (e.topic 3) = stamp.shard then [itemOf stamp e] else []

variable {n stamp}

/-! ### One event after another -/

theorem itemUpdates_dispatch (e : LoggedEvent) (r : Reading) :
    (EventFamily.dispatch (n.eventFamilies stamp) e r).findings.itemUpdates =
      r.findings.itemUpdates ++ (n.itemUpdate? e.event).toList := by
  by_cases hid : e.event.identifier ∈ n.itemUpdates.identifiers
  · rw [EventFamily.dispatch_eq_of_mem (n.disjoint_eventFamilies stamp)
      (n.owns_itemUpdates stamp).mem hid]
    unfold itemUpdate?
    simp only [hid, not_true_eq_false, false_or]
    simp only [EventFamily.act, itemUpdates]
    by_cases hpause : e.event.identifier = pauseIdentifier ∨
        e.event.identifier = unpauseIdentifier
    · rw [if_pos hpause, if_pos hpause]
      cases pauseOf? e.event with
      | none => simp
      | some u => rfl
    rw [if_neg hpause, if_neg hpause]
    -- the three checks in the order of the program; the last one declines, the others accept
    by_cases hshort : e.event.topics.length < 4
    · simp [hshort]
    by_cases hnobody : n.addresses.encodeOrEmpty e.event.address = ""
    · simp [hshort, hnobody]
    by_cases hnonce : Bytes.toUInt64 (e.event.topic 1) = 0
    · simp [hshort, hnobody, hnonce]
    · simp [hshort, hnobody, hnonce, Reading.learn, Findings.addItemUpdate]
  · have hpause : ¬ (e.event.identifier = pauseIdentifier ∨
        e.event.identifier = unpauseIdentifier) := by
      rintro (heq | heq) <;> exact hid (by simp [itemUpdates, heq])
    rw [(n.owns_itemUpdates stamp).part_dispatch_of_not_mem hid, itemUpdate?, if_neg hpause,
      if_pos (Or.inl hid)]
    exact (List.append_nil _).symm

theorem created_noteOwn (e : Event) (f : Findings) :
    (n.noteOwn stamp e f).created =
      (if e.identifier = createIdentifier then (n.createdItemOf? stamp e).toList
        else []).foldl Registry.add f.created := by
  unfold noteOwn
  by_cases hcreate : e.identifier = createIdentifier
  · rw [if_pos hcreate, if_pos hcreate]
    cases n.createdItemOf? stamp e <;> rfl
  · rw [if_neg hcreate, if_neg hcreate]
    rfl

theorem removed_noteOwn (e : Event) (f : Findings) :
    (n.noteOwn stamp e f).removed =
      (if e.identifier ≠ createIdentifier then [itemOf stamp e] else []).foldl Registry.add
        f.removed := by
  unfold noteOwn
  by_cases hcreate : e.identifier = createIdentifier
  · rw [if_pos hcreate, if_neg (not_not_intro hcreate)]
    cases n.createdItemOf? stamp e <;> rfl
  · rw [if_neg hcreate, if_pos hcreate]
    rfl

theorem created_noteHeld (e : Event) (f : Findings) :
    (n.noteHeld stamp e f).created = f.created := by
  unfold noteHeld
  split <;> rfl

theorem removed_noteHeld (e : Event) (f : Findings) :
    (n.noteHeld stamp e f).removed =
      (if e.identifier = wipeIdentifier ∧ 4 ≤ e.topics.length ∧
        n.sharding.shardOf (e.topic 3) = stamp.shard then [itemOf stamp e] else []).foldl
          Registry.add f.removed := by
  unfold noteHeld
  split <;> rfl

/-- What an event about items adds to those created and to those removed. Both are shown at once,
since one family owns both. -/
theorem items_dispatch (e : LoggedEvent) (r : Reading) :
    (EventFamily.dispatch (n.eventFamilies stamp) e r).findings.created =
        (n.creationsOf stamp e.event).foldl Registry.add r.findings.created ∧
      (EventFamily.dispatch (n.eventFamilies stamp) e r).findings.removed =
        (n.removalsOf stamp e.event).foldl Registry.add r.findings.removed := by
  unfold creationsOf removalsOf
  by_cases hid : e.event.identifier ∈ (n.items stamp).identifiers
  · rw [EventFamily.dispatch_eq_of_mem (n.disjoint_eventFamilies stamp) (n.owns_items stamp).mem
      hid, EventFamily.act]
    by_cases hitem : n.IsOfItem stamp e.event
    · have hshort : ¬ e.event.topics.length < 2 := Nat.not_lt.mpr hitem.2.1
      have hread : (n.items stamp).interpret e r =
          some (r.learn fun f =>
            let f := if n.sharding.shardOf e.event.address = stamp.shard then
              n.noteOwn stamp e.event f else f
            n.noteHeld stamp e.event f) := by
        simp only [items]
        rw [if_neg hshort, if_neg hitem.2.2]
      rw [hread, Option.getD_some]
      simp only [hitem, true_and, Reading.learn, created_noteHeld, removed_noteHeld,
        List.foldl_append]
      by_cases hown : n.sharding.shardOf e.event.address = stamp.shard
      · simp only [hown, if_true, true_and, created_noteOwn, removed_noteOwn, and_self]
      · simp only [hown, if_false, false_and, List.foldl_nil, and_self]
    · have hread : ((n.items stamp).interpret e r).getD r = r := by
        simp only [items]
        by_cases hshort : e.event.topics.length < 2
        · rw [if_pos hshort]
          rfl
        · have hnonce : Bytes.toUInt64 (e.event.topic 1) = 0 :=
            Decidable.byContradiction fun hne => hitem ⟨hid, Nat.not_lt.mp hshort, hne⟩
          rw [if_neg hshort, if_pos hnonce]
          rfl
      rw [hread]
      simp [hitem]
  · obtain ⟨hcreated, hremoved⟩ :=
      Prod.mk.inj ((n.owns_items stamp).part_dispatch_of_not_mem (r := r) hid)
    have hitem : ¬ n.IsOfItem stamp e.event := fun h => hid h.1
    rw [hcreated, hremoved]
    simp [hitem]

/-! ### All logs of a block -/

/-- The changes of items are those that the events tell. -/
theorem itemUpdates_readLogs (n : Network) (stamp : BlockStamp) (logs : List LogEntry)
    (txs : List Transaction) (results : List ContractResult) :
    (n.readLogs stamp logs txs results).findings.itemUpdates =
      (loggedEvents logs).filterMap fun e => n.itemUpdate? e.event := by
  refine EventFamily.readLogs_induction
    (P := fun es r => r.findings.itemUpdates = es.filterMap fun e => n.itemUpdate? e.event)
    ?_ ?_ ?_ rfl logs
  · intro es e r hr
    rw [itemUpdates_dispatch (n := n), hr, List.filterMap_append]
    cases hupdate : n.itemUpdate? e.event with
    | none => simp [hupdate]
    | some u => simp [hupdate]
  · intro es r hash hr
    rw [Reading.markOperations, findings_alterRecord, hr]
  · intro es r hash hr
    rw [Reading.markLogs, findings_alterRecord, hr]

/-- The items created are those that the events create, added one after another. -/
theorem created_readLogs (n : Network) (stamp : BlockStamp) (logs : List LogEntry)
    (txs : List Transaction) (results : List ContractResult) :
    (n.readLogs stamp logs txs results).findings.created =
      ((loggedEvents logs).flatMap fun e => n.creationsOf stamp e.event).foldl Registry.add
        .empty :=
  EventFamily.findings_readLogs_foldl (v := (·.created)) (fun e r => (items_dispatch e r).1)
    ⟨txs, results, {}⟩ logs

/-- The items removed are those that the events remove, added one after another. -/
theorem removed_readLogs (n : Network) (stamp : BlockStamp) (logs : List LogEntry)
    (txs : List Transaction) (results : List ContractResult) :
    (n.readLogs stamp logs txs results).findings.removed =
      ((loggedEvents logs).flatMap fun e => n.removalsOf stamp e.event).foldl Registry.add
        .empty :=
  EventFamily.findings_readLogs_foldl (v := (·.removed)) (fun e r => (items_dispatch e r).2)
    ⟨txs, results, {}⟩ logs

end Network

end ChainIndex
