import ChainIndex.Proofs.Events.Reading

/-!
# Every event has one family

No two families list one identifier (`Network.disjoint_eventFamilies`), so an event is read by the
family that lists it and by no other one, wherever that family stands (`dispatch_eq_of_mem`). A part
of a reading that one family alone changes is therefore what that family makes of its own events,
taken one after another (`EventFamily.Owns.part_readLogs`).

Reading goes log by log, and marks records between the events. `EventFamily.readLogs_induction` is
the induction that does away with both: a statement about the events read so far is carried over one
more event, and past a mark. Everything said of the logs of a block here and in what builds on this
is proved by it.
-/

namespace ChainIndex

/-- The events of logs in order, each with the hash and the address of its log. -/
def loggedEvents (logs : List LogEntry) : List LoggedEvent :=
  logs.flatMap fun l => l.log.events.map (⟨l.hash, l.log.address, ·⟩)

theorem mem_loggedEvents {logs : List LogEntry} {e : LoggedEvent} :
    e ∈ loggedEvents logs ↔
      ∃ l ∈ logs, ∃ event ∈ l.log.events, e = ⟨l.hash, l.log.address, event⟩ := by
  simp only [loggedEvents, List.mem_flatMap, List.mem_map, eq_comm]

namespace EventFamily

/-- Whether a family lists an event. -/
def lists (f : EventFamily) (e : LoggedEvent) : Bool :=
  f.identifiers.contains e.event.identifier

/-- A reading after a family has been given an event; an event that is declined changes nothing. -/
def act (f : EventFamily) (r : Reading) (e : LoggedEvent) : Reading :=
  (f.interpret e r).getD r

/-! ### Which family reads an event -/

/-- Families that list no common identifier. -/
def Disjoint (families : List EventFamily) : Prop :=
  families.Pairwise fun f g => ∀ i ∈ f.identifiers, i ∉ g.identifiers

variable {families : List EventFamily} {f : EventFamily} {e : LoggedEvent} {r : Reading}

theorem lists_iff : f.lists e = true ↔ e.event.identifier ∈ f.identifiers :=
  List.contains_iff_mem

theorem offer_of_mem (h : e.event.identifier ∈ f.identifiers) : f.offer e r = f.interpret e r := by
  rw [offer, if_pos (List.contains_iff_mem.mpr h)]

theorem offer_of_not_mem (h : e.event.identifier ∉ f.identifiers) : f.offer e r = none := by
  rw [offer, if_neg fun hc => h (List.contains_iff_mem.mp hc)]

/-- What no family lists changes nothing. -/
theorem dispatch_of_unlisted (h : ∀ g ∈ families, e.event.identifier ∉ g.identifiers) :
    dispatch families e r = r := by
  rw [dispatch, List.findSome?_eq_none_iff.mpr fun g hg => offer_of_not_mem (h g hg)]
  rfl

/-- An event is read by the family that lists it, wherever the family stands. -/
theorem dispatch_eq_of_mem (hdisjoint : Disjoint families) (hf : f ∈ families)
    (hid : e.event.identifier ∈ f.identifiers) :
    dispatch families e r = f.act r e := by
  induction families with
  | nil => cases hf
  | cons g rest ih =>
      obtain ⟨hg, hrest⟩ := List.pairwise_cons.mp hdisjoint
      rw [dispatch, List.findSome?_cons]
      rcases List.mem_cons.mp hf with rfl | hf
      · rw [offer_of_mem hid, act]
        cases f.interpret e r with
        | some r' => rfl
        -- an event that its family declines is offered to the rest, and no one there lists it
        | none => exact dispatch_of_unlisted fun g hmem => hg g hmem _ hid
      · rw [offer_of_not_mem fun hlisted => hg f hf _ hlisted hid]
        exact ih hrest hf

/-- What holds of a reading, and of what each family that lists an event makes of it, holds after
the event. -/
theorem dispatch_cases {P : Reading → Prop}
    (h : ∀ g ∈ families, e.event.identifier ∈ g.identifiers →
      ∀ r', g.interpret e r = some r' → P r') (hr : P r) : P (dispatch families e r) := by
  rw [dispatch]
  cases hread : families.findSome? fun g => g.offer e r with
  | none => exact hr
  | some r' =>
      obtain ⟨g, hg, hoffer⟩ := List.exists_of_findSome?_eq_some hread
      by_cases hid : e.event.identifier ∈ g.identifiers
      · rw [offer_of_mem hid] at hoffer
        exact h g hg hid r' hoffer
      · rw [offer_of_not_mem hid] at hoffer
        cases hoffer

/-! ### A whole block, event by event -/

/-- What holds of no event, and goes on to hold when one more event has been read or a record has
been marked, holds of all events of a block. -/
theorem readLogs_induction {P : List LoggedEvent → Reading → Prop}
    (event : ∀ es e r, P es r → P (es ++ [e]) (dispatch families e r))
    (operations : ∀ es r hash, P es r → P es (r.markOperations hash))
    (marks : ∀ es r hash, P es r → P es (r.markLogs hash)) (start : P [] r)
    (logs : List LogEntry) : P (loggedEvents logs) (readLogs families r logs) := by
  have hlog : ∀ es r (l : LogEntry), P es r →
      P (es ++ l.log.events.map (⟨l.hash, l.log.address, ·⟩)) (readLog families r l) := by
    intro es r l hr
    refine marks _ _ _ ?_
    induction l.log.events generalizing es r with
    | nil =>
        rw [List.map_nil, List.append_nil]
        exact hr
    | cons e rest ih =>
        have hone := operations _ _ l.hash (event es ⟨l.hash, l.log.address, e⟩ r hr)
        simpa [List.append_assoc] using ih _ _ hone
  -- the events of the logs in front are read already
  have hlogs : ∀ es r, P es r → P (es ++ loggedEvents logs) (readLogs families r logs) := by
    induction logs with
    | nil =>
        intro es r hr
        simpa [loggedEvents, readLogs] using hr
    | cons l rest ih =>
        intro es r hr
        simpa [loggedEvents, readLogs, List.append_assoc] using ih _ _ (hlog es r l hr)
  simpa using hlogs [] r start

/-- What is collected of each event is collected of all events of a block, in order. -/
theorem findings_readLogs_foldl {α β : Type} {v : Findings → α} {f : LoggedEvent → List β}
    {g : α → β → α}
    (event : ∀ e r, v (dispatch families e r).findings = (f e).foldl g (v r.findings))
    (r : Reading) (logs : List LogEntry) :
    v (readLogs families r logs).findings =
      ((loggedEvents logs).flatMap f).foldl g (v r.findings) := by
  refine readLogs_induction
    (P := fun es s => v s.findings = (es.flatMap f).foldl g (v r.findings)) ?_ ?_ ?_ rfl logs
  · intro es e s hs
    rw [event, hs, List.flatMap_append, List.foldl_append, List.flatMap_singleton]
  · intro es s hash hs
    rw [Reading.markOperations, Network.findings_alterRecord, hs]
  · intro es s hash hs
    rw [Reading.markLogs, Network.findings_alterRecord, hs]

/-! ### What one family alone changes

That a family owns a part means two things: nothing else changes the part, and the family itself
looks at nothing else when it changes it. With the first alone a part could still depend on events
of other families by way of what these change. -/

/-- A part of a reading that one of some families alone changes, by nothing else than what the part
tells already. -/
structure Owns {α : Type} (families : List EventFamily) (f : EventFamily) (part : Reading → α) :
    Prop where
  mem : f ∈ families
  own : ∀ e r r', part r = part r' → part (f.act r e) = part (f.act r' e)
  others : ∀ g ∈ families, ∀ e r, g = f ∨ part (g.act r e) = part r
  operations : ∀ r hash, part (r.markOperations hash) = part r
  marks : ∀ r hash, part (r.markLogs hash) = part r

section Owns

variable {α : Type} {part : Reading → α}

/-- A part of the findings has an owner if the families say so; marks do not concern it. -/
theorem owns_of_findings {v : Findings → α} (mem : f ∈ families)
    (own : ∀ e r r', v r.findings = v r'.findings →
      v (f.act r e).findings = v (f.act r' e).findings)
    (others : ∀ g ∈ families, ∀ e r, g = f ∨ v (g.act r e).findings = v r.findings) :
    Owns families f fun r => v r.findings where
  mem
  own
  others
  operations r hash := by rw [Reading.markOperations, Network.findings_alterRecord]
  marks r hash := by rw [Reading.markLogs, Network.findings_alterRecord]

theorem Owns.part_dispatch_of_mem (h : Owns families f part) (hdisjoint : Disjoint families)
    (hid : e.event.identifier ∈ f.identifiers) :
    part (dispatch families e r) = part (f.act r e) := by
  rw [dispatch_eq_of_mem hdisjoint h.mem hid]

theorem Owns.part_dispatch_of_not_mem (h : Owns families f part)
    (hid : e.event.identifier ∉ f.identifiers) : part (dispatch families e r) = part r := by
  refine dispatch_cases (P := fun r' => part r' = part r) ?_ rfl
  intro g hg hlisted r' hread
  have hact : g.act r e = r' := by rw [act, hread, Option.getD_some]
  rcases h.others g hg e r with rfl | hpart
  · exact absurd hlisted hid
  · rw [← hact, hpart]

/-- What the logs make of a part is what its owner makes of its own events. -/
theorem Owns.part_readLogs (h : Owns families f part) (hdisjoint : Disjoint families)
    (r : Reading) (logs : List LogEntry) :
    part (readLogs families r logs) =
      part (((loggedEvents logs).filter f.lists).foldl f.act r) := by
  refine readLogs_induction
    (P := fun es s => part s = part ((es.filter f.lists).foldl f.act r)) ?_ ?_ ?_ rfl logs
  · intro es e s hs
    rw [List.filter_append, List.foldl_append]
    by_cases hid : e.event.identifier ∈ f.identifiers
    · rw [h.part_dispatch_of_mem hdisjoint hid, List.filter_cons_of_pos (lists_iff.mpr hid)]
      exact h.own e _ _ hs
    · rw [h.part_dispatch_of_not_mem hid, List.filter_cons_of_neg (hid ∘ lists_iff.mp)]
      exact hs
  · intro es s hash hs
    rw [h.operations, hs]
  · intro es s hash hs
    rw [h.marks, hs]

/-- Logs with the same events of the owner, in the same order, make the same of a part. -/
theorem Owns.part_readLogs_eq (h : Owns families f part) (hdisjoint : Disjoint families)
    (r : Reading) {logs logs' : List LogEntry}
    (hevents : (loggedEvents logs).filter f.lists = (loggedEvents logs').filter f.lists) :
    part (readLogs families r logs) = part (readLogs families r logs') := by
  rw [h.part_readLogs hdisjoint, h.part_readLogs hdisjoint, hevents]

end Owns

end EventFamily

/-- The seven families have no identifier in common; which ones they list does not depend on the
network or on the block. -/
theorem Network.disjoint_eventFamilies (n : Network) (stamp : BlockStamp) :
    EventFamily.Disjoint (n.eventFamilies stamp) := by
  have h : ((n.eventFamilies stamp).map (·.identifiers)).Pairwise
      fun is js => ∀ i ∈ is, i ∉ js := by
    simp only [Network.eventFamilies, List.map_cons, List.map_nil, Network.deploys, endings,
      Network.itemUpdates, Network.roleChanges, Network.issues, Network.delegations,
      Network.items]
    decide
  exact List.pairwise_map.mp h

end ChainIndex
