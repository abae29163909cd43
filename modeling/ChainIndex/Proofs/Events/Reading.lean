import ChainIndex.Events
import Mathlib.Logic.Relation

/-!
# What reading logs can do

Reading the logs of a block is a sequence of small steps, however many families of events there
are. `Learns` has one constructor for each thing that an event can add to the findings, `ReadStep`
one for each change of a reading, and `reads_readLogs` says that there are no others. What every
step keeps is then kept by the whole reading: so the logs change no more of a transaction than how
it has ended and what it is marked with (`Reads.map_unread`), and no more of a result than its marks
(`Reads.map_unread_results`).

The steps are a bound on what can happen, and not a description: nothing is said of which event
makes which step. So an invariant of the findings needs one case for each constructor of `Learns`,
and does not ask how events are shared among families. Where it matters what an event tells, the
constructor carries that it was told (`told`), or that the nonce is not zero.
-/

namespace ChainIndex

namespace Network

variable (n : Network) (stamp : BlockStamp)

/-- What an event can add to the findings. -/
inductive Learns (f : Findings) : Findings → Prop
  | owner {e : LoggedEvent} {contract : String} {owner : OwnerRecord}
      (told : n.newOwnerOf? stamp e = some (contract, owner)) :
      Learns f { f with owners := f.owners.insert contract owner }
  | deployment {e : LoggedEvent} {contract : String} {deployment : Deployment}
      (told : n.deploymentOf? stamp e = some (contract, deployment)) :
      Learns f { f with deployments := f.deployments.insert contract deployment }
  | ending (hash : String) (report : Ending) : Learns f (f.addEnding hash report)
  | itemUpdate (u : ItemUpdate) : Learns f (f.addItemUpdate u)
  | properties (e : Event) :
      Learns f { f with roleBook := f.roleBook.addProperties (propertyChangeOf e) }
  | roles (e : Event) :
      Learns f
        { f with
          roleBook := (n.roleChangesOf e).foldl (fun b c => b.addRole c.1 c.2) f.roleBook }
  | issued {e : Event} {t : TokenRecord} (told : n.issueOf? stamp e = some t) :
      Learns f { f with issued := f.issued ++ [t] }
  | delegation {e : LoggedEvent} {d : Delegation} (told : n.delegationOf? stamp e = some d) :
      Learns f { f with delegations := f.delegations.insert d.key d }
  | created {e : Event} {t : TokenRecord} (nonce : Bytes.toUInt64 (e.topic 1) ≠ 0)
      (told : n.createdItemOf? stamp e = some t) :
      Learns f { f with created := f.created.add t }
  | removed {e : Event} (nonce : Bytes.toUInt64 (e.topic 1) ≠ 0) :
      Learns f { f with removed := f.removed.add (itemOf stamp e) }

/-- A step of a reading. -/
inductive ReadStep (r : Reading) : Reading → Prop
  | operations (hash : String) : ReadStep r (r.markOperations hash)
  | logs (hash : String) : ReadStep r (r.markLogs hash)
  | ended {hash identifier : String} {r' : Reading}
      (known : r.alterTransaction? hash (·.endedBy identifier) = some r') : ReadStep r r'
  | learned {f : Findings} (learns : n.Learns stamp r.findings f) :
      ReadStep r { r with findings := f }

/-- Any number of steps. -/
abbrev Reads : Reading → Reading → Prop :=
  Relation.ReflTransGen (n.ReadStep stamp)

variable {n stamp} {r r' : Reading} {e : LoggedEvent}

/-! ### Every family reads by steps

A family that declines an event, or that finds nothing in it, takes no step at all; this is the
reflexive case of `Reads`. -/

theorem reads_learn {f : Findings} (h : n.Learns stamp r.findings f) :
    n.Reads stamp r { r with findings := f } :=
  .single (.learned h)

theorem reads_deploys (h : (n.deploys stamp).interpret e r = some r') : n.Reads stamp r r' := by
  simp only [deploys] at h
  split at h
  · cases htold : n.newOwnerOf? stamp e with
    | none =>
        rw [htold] at h
        cases h
        exact .refl
    | some owner =>
        rw [htold] at h
        cases h
        exact reads_learn (.owner htold)
  · cases htold : n.deploymentOf? stamp e with
    | none =>
        rw [htold] at h
        cases h
        exact .refl
    | some deployment =>
        rw [htold] at h
        cases h
        exact reads_learn (.deployment htold)

/-- An event about an ending changes a transaction of the block or adds to the findings, and never
does both. -/
theorem reads_endings (h : endings.interpret e r = some r') : n.Reads stamp r r' := by
  simp only [endings] at h
  cases hknown : r.alterTransaction? e.hash (·.endedBy e.event.identifier) with
  | some changed =>
      rw [hknown] at h
      cases h
      exact .single (.ended hknown)
  | none =>
      rw [hknown] at h
      dsimp only at h
      split at h
      · cases h
        exact reads_learn (.ending _ _)
      · cases h
        exact .refl

theorem reads_itemUpdates (h : n.itemUpdates.interpret e r = some r') : n.Reads stamp r r' := by
  simp only [itemUpdates] at h
  split at h
  · split at h
    · cases h
      exact .refl
    · cases h
      exact reads_learn (.itemUpdate _)
  · split at h
    · cases h
      exact .refl
    · split at h
      · cases h
        exact .refl
      · split at h
        · cases h
        · cases h
          exact reads_learn (.itemUpdate _)

theorem reads_roleChanges (h : n.roleChanges.interpret e r = some r') : n.Reads stamp r r' := by
  simp only [roleChanges] at h
  split at h
  · cases h
    exact .refl
  · split at h
    · cases h
      exact reads_learn (.properties e.event)
    · cases h
      exact reads_learn (.roles e.event)

theorem reads_issues (h : (n.issues stamp).interpret e r = some r') : n.Reads stamp r r' := by
  simp only [issues] at h
  cases htold : n.issueOf? stamp e.event with
  | none =>
      rw [htold] at h
      cases h
      exact .refl
  | some t =>
      rw [htold] at h
      cases h
      exact reads_learn (.issued htold)

theorem reads_delegations (h : (n.delegations stamp).interpret e r = some r') :
    n.Reads stamp r r' := by
  simp only [delegations] at h
  split at h
  · cases h
  · cases htold : n.delegationOf? stamp e with
    | none =>
        rw [htold] at h
        cases h
        exact .refl
    | some d =>
        rw [htold] at h
        cases h
        exact reads_learn (.delegation htold)

theorem reads_noteOwn {e : Event} (hnonce : Bytes.toUInt64 (e.topic 1) ≠ 0) :
    n.Reads stamp r { r with findings := n.noteOwn stamp e r.findings } := by
  unfold noteOwn
  split
  · cases htold : n.createdItemOf? stamp e with
    | none => exact .refl
    | some t => exact reads_learn (.created hnonce htold)
  · exact reads_learn (.removed hnonce)

theorem reads_noteHeld {e : Event} (hnonce : Bytes.toUInt64 (e.topic 1) ≠ 0) :
    n.Reads stamp r { r with findings := n.noteHeld stamp e r.findings } := by
  unfold noteHeld
  split
  · exact reads_learn (.removed hnonce)
  · exact .refl

theorem reads_items (h : (n.items stamp).interpret e r = some r') : n.Reads stamp r r' := by
  simp only [items] at h
  split at h
  · cases h
    exact .refl
  · split at h
    · cases h
    · next hnonce =>
        cases h
        -- a wipe may be noted twice, by the shard that acts and by that of the holder
        show n.Reads stamp r { r with findings := n.noteHeld stamp e.event _ }
        split
        · exact (reads_noteOwn hnonce).trans (reads_noteHeld hnonce)
        · exact reads_noteHeld hnonce

/-- This is the one place where all families are listed. A new family needs a lemma like those above
and one more case here. -/
theorem reads_interpret {f : EventFamily} (hf : f ∈ n.eventFamilies stamp)
    (h : f.interpret e r = some r') : n.Reads stamp r r' := by
  simp only [eventFamilies, List.mem_cons, List.not_mem_nil, or_false] at hf
  rcases hf with rfl | rfl | rfl | rfl | rfl | rfl | rfl
  · exact reads_deploys h
  · exact reads_endings h
  · exact reads_itemUpdates h
  · exact reads_roleChanges h
  · exact reads_issues h
  · exact reads_delegations h
  · exact reads_items h

/-! ### A whole block is read by steps -/

/-- An event goes to the first family that takes it, and is passed over if none does. -/
theorem reads_dispatch (e : LoggedEvent) (r : Reading) :
    n.Reads stamp r (EventFamily.dispatch (n.eventFamilies stamp) e r) := by
  rw [EventFamily.dispatch]
  cases hsome : (n.eventFamilies stamp).findSome? fun f => f.offer e r with
  | none => exact .refl
  | some r' =>
      obtain ⟨f, hf, hoffer⟩ := List.exists_of_findSome?_eq_some hsome
      rw [EventFamily.offer] at hoffer
      split at hoffer
      · exact reads_interpret hf hoffer
      · cases hoffer

theorem reads_readLog (r : Reading) (log : LogEntry) :
    n.Reads stamp r (EventFamily.readLog (n.eventFamilies stamp) r log) := by
  -- whatever an event tells, its record is marked
  have hevents : ∀ (events : List Event) (r : Reading), n.Reads stamp r
      (events.foldl (fun r event =>
        (EventFamily.dispatch (n.eventFamilies stamp) ⟨log.hash, log.log.address, event⟩
          r).markOperations log.hash) r) := by
    intro events
    induction events with
    | nil => exact fun r => .refl
    | cons event rest ih =>
        intro r
        exact ((reads_dispatch _ r).tail (.operations log.hash)).trans (ih _)
  exact (hevents log.log.events r).tail (.logs log.hash)

theorem reads_readLogs (r : Reading) (logs : List LogEntry) :
    n.Reads stamp r (EventFamily.readLogs (n.eventFamilies stamp) r logs) := by
  rw [EventFamily.readLogs]
  induction logs generalizing r with
  | nil => exact .refl
  | cons log rest ih => exact (reads_readLog r log).trans (ih _)

/-! ### What steps keep -/

/-- What every step keeps, any number of steps keeps. -/
theorem Reads.keeps {P : Reading → Prop}
    (hP : ∀ r r', n.ReadStep stamp r r' → P r → P r') (h : n.Reads stamp r r') (hr : P r) :
    P r' := by
  induction h with
  | refl => exact hr
  | tail _ hstep ih => exact hP _ _ hstep ih

/-- A hash names a transaction, or else a result, or else no record at all. -/
theorem alterRecord_cases (r : Reading) (hash : String) (f : Transaction → Transaction)
    (g : ContractResult → ContractResult) :
    (∃ txs, alterLast? (·.hash == hash) f r.transactions = some txs ∧
        r.alterRecord hash f g = { r with transactions := txs }) ∨
      (alterLast? (·.hash == hash) f r.transactions = none ∧
        ∃ results, alterLast? (·.hash == hash) g r.results = some results ∧
          r.alterRecord hash f g = { r with results := results }) ∨
      (alterLast? (·.hash == hash) f r.transactions = none ∧
        alterLast? (·.hash == hash) g r.results = none ∧ r.alterRecord hash f g = r) := by
  unfold Reading.alterRecord Reading.alterTransaction? Reading.alterResult?
  cases alterLast? (·.hash == hash) f r.transactions with
  | some txs => exact .inl ⟨txs, rfl, rfl⟩
  | none =>
      cases alterLast? (·.hash == hash) g r.results with
      | some results => exact .inr (.inl ⟨rfl, results, rfl, rfl⟩)
      | none => exact .inr (.inr ⟨rfl, rfl, rfl⟩)

/-- The record that a hash names has nothing to do with the findings. -/
theorem findings_alterRecord (r : Reading) (hash : String) (f : Transaction → Transaction)
    (g : ContractResult → ContractResult) :
    (r.alterRecord hash f g).findings = r.findings := by
  obtain ⟨_, -, h⟩ | ⟨-, _, -, h⟩ | ⟨-, -, h⟩ := alterRecord_cases r hash f g <;> rw [h]

/-- Steps keep what all that events can add to the findings keeps. -/
theorem Reads.keeps_findings {P : Findings → Prop}
    (hP : ∀ f f', n.Learns stamp f f' → P f → P f') (h : n.Reads stamp r r')
    (hr : P r.findings) : P r'.findings := by
  refine h.keeps (P := fun r => P r.findings) ?_ hr
  intro r r' hstep hr
  cases hstep with
  | operations hash =>
      rw [Reading.markOperations, findings_alterRecord]
      exact hr
  | logs hash =>
      rw [Reading.markLogs, findings_alterRecord]
      exact hr
  | ended known =>
      obtain ⟨txs, -, rfl⟩ := Option.map_eq_some_iff.mp known
      exact hr
  | learned learns => exact hP _ _ learns hr

end Network

/-! ### What logs leave of a record -/

/-- A transaction without what the logs tell of it. -/
def Transaction.unread (t : Transaction) : Transaction :=
  { t with
    status := .success
    hasOperations := false
    hasLogs := false
    errorEvent := false
    completedEvent := false }

/-- A result without what the logs tell of it. -/
def ContractResult.unread (r : ContractResult) : ContractResult :=
  { r with hasOperations := false, hasLogs := false }

/-- A report of an end changes the status and two marks, all of which are left out here. -/
theorem Transaction.unread_endedBy (identifier : String) (t : Transaction) :
    (t.endedBy identifier).unread = t.unread := by
  unfold endedBy
  split
  · rfl
  · split <;> rfl

/-- Changing the last element that a test finds keeps what the change keeps. -/
theorem map_alterLast? {α β : Type} {p : α → Bool} {f : α → α} {g : α → β}
    (hg : ∀ a, g (f a) = g a) {as bs : List α} (h : alterLast? p f as = some bs) :
    bs.map g = as.map g := by
  induction as generalizing bs with
  | nil => exact absurd h (by simp [alterLast?])
  | cons a rest ih =>
      rw [alterLast?] at h
      cases hrest : alterLast? p f rest with
      | some changed =>
          rw [hrest] at h
          cases h
          rw [List.map_cons, List.map_cons, ih hrest]
      | none =>
          rw [hrest] at h
          dsimp only at h
          split at h
          · cases h
            rw [List.map_cons, List.map_cons, hg]
          · cases h

namespace Network

variable {n : Network} {stamp : BlockStamp} {r r' : Reading}

/-- Changing the record that a hash names keeps of the transactions what the change of one keeps. -/
theorem map_transactions_alterRecord {β : Type} {v : Transaction → β} (r : Reading)
    (hash : String) {f : Transaction → Transaction} (hf : ∀ t, v (f t) = v t)
    (g : ContractResult → ContractResult) :
    (r.alterRecord hash f g).transactions.map v = r.transactions.map v := by
  obtain ⟨_, htxs, h⟩ | ⟨-, _, -, h⟩ | ⟨-, -, h⟩ := alterRecord_cases r hash f g <;> rw [h]
  exact map_alterLast? hf htxs

theorem map_results_alterRecord {β : Type} {v : ContractResult → β} (r : Reading) (hash : String)
    (f : Transaction → Transaction) {g : ContractResult → ContractResult}
    (hg : ∀ s, v (g s) = v s) :
    (r.alterRecord hash f g).results.map v = r.results.map v := by
  obtain ⟨_, -, h⟩ | ⟨-, _, hresults, h⟩ | ⟨-, -, h⟩ := alterRecord_cases r hash f g <;> rw [h]
  exact map_alterLast? hg hresults

/-- Of the transactions, in their order, logs change no more than what they tell of them. -/
theorem Reads.map_unread (h : n.Reads stamp r r') :
    r'.transactions.map (·.unread) = r.transactions.map (·.unread) := by
  refine h.keeps (P := fun s => s.transactions.map (·.unread) = r.transactions.map (·.unread))
    ?_ rfl
  intro s s' hstep hs
  rw [← hs]
  cases hstep with
  | operations hash =>
      rw [Reading.markOperations]
      exact map_transactions_alterRecord s hash (fun _ => by rfl) _
  | logs hash =>
      rw [Reading.markLogs]
      exact map_transactions_alterRecord s hash (fun _ => by rfl) _
  | ended known =>
      obtain ⟨txs, htxs, rfl⟩ := Option.map_eq_some_iff.mp known
      exact map_alterLast? (Transaction.unread_endedBy _) htxs
  | learned learns => rfl

/-- Of the results, in their order, logs change no more than what they tell of them. -/
theorem Reads.map_unread_results (h : n.Reads stamp r r') :
    r'.results.map (·.unread) = r.results.map (·.unread) := by
  refine h.keeps (P := fun s => s.results.map (·.unread) = r.results.map (·.unread)) ?_ rfl
  intro s s' hstep hs
  rw [← hs]
  cases hstep with
  | operations hash =>
      rw [Reading.markOperations]
      exact map_results_alterRecord s hash _ fun _ => by rfl
  | logs hash =>
      rw [Reading.markLogs]
      exact map_results_alterRecord s hash _ fun _ => by rfl
  | ended known =>
      obtain ⟨txs, -, rfl⟩ := Option.map_eq_some_iff.mp known
      rfl
  | learned learns => rfl

end Network

end ChainIndex
