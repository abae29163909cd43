import ChainIndex.Proofs.Events.Parts
import ChainIndex.Proofs.Table

/-!
# How endings add up

An event in the log of a result tells of the transaction that the result goes back to: that it has
failed, or that it is complete. What is known of a transaction after any number of such events is
whether some event has told the one and whether some event has told the other, and nothing else
(`Network.get?_endings_readLogs`). So neither the order of the events nor that of the logs counts,
and no later event takes a failure back.

The reading that an event finds is not the one that the block starts with: records have been marked,
and other events have been read. But which transaction an event tells of goes by the names of the
records alone, and these never change (`Network.Reads.names_eq`). This is what lets the whole block
be described by the names at its start.
-/

namespace ChainIndex

/-! ### The names of records -/

/-- What names the records of a reading: the hash of each transaction, and of each result the hash
with that of its first transaction. -/
def Reading.names (r : Reading) : List String × List (String × String) :=
  (r.transactions.map (·.hash), r.results.map fun s => (s.hash, s.originHash))

/-- Whatever is changed of one record, which transaction a log tells of is decided by hashes. -/
theorem Reading.names_alterRecord (r : Reading) (hash : String) {f : Transaction → Transaction}
    {g : ContractResult → ContractResult} (hf : ∀ t, (f t).hash = t.hash)
    (hg : ∀ s, ((g s).hash, (g s).originHash) = (s.hash, s.originHash)) :
    (r.alterRecord hash f g).names = r.names := by
  rw [names, names, Network.map_transactions_alterRecord r hash hf,
    Network.map_results_alterRecord r hash f hg]

theorem Reading.names_markOperations (r : Reading) (hash : String) :
    (r.markOperations hash).names = r.names :=
  r.names_alterRecord hash (fun _ => rfl) fun _ => rfl

theorem Reading.names_markLogs (r : Reading) (hash : String) :
    (r.markLogs hash).names = r.names :=
  r.names_alterRecord hash (fun _ => rfl) fun _ => rfl

theorem Transaction.hash_endedBy (identifier : String) (t : Transaction) :
    (t.endedBy identifier).hash = t.hash :=
  (congrArg Transaction.hash (unread_endedBy identifier t) :)

/-- Whatever is read, records keep their names. -/
theorem Network.Reads.names_eq {n : Network} {stamp : BlockStamp} {r r' : Reading}
    (h : n.Reads stamp r r') : r'.names = r.names := by
  refine h.keeps (P := fun s => s.names = r.names) ?_ rfl
  intro s s' hstep hs
  rw [← hs]
  cases hstep with
  | operations hash => exact s.names_markOperations hash
  | logs hash => exact s.names_markLogs hash
  | ended known =>
      obtain ⟨txs, htxs, rfl⟩ := Option.map_eq_some_iff.mp known
      exact congrArg (·, _) (map_alterLast? (Transaction.hash_endedBy _) htxs)
  | learned learns => rfl

theorem alterLast?_eq_none_iff {α : Type} {p : α → Bool} {f : α → α} {as : List α} :
    alterLast? p f as = none ↔ ∀ a ∈ as, p a = false := by
  induction as with
  | nil => simp [alterLast?]
  | cons a rest ih =>
      rw [alterLast?, List.forall_mem_cons]
      cases hrest : alterLast? p f rest with
      | some changed => simp [← ih, hrest]
      | none => simp [← ih, hrest]

/-! ### The transaction that a log tells of -/

/-- The transaction of another block that the log of a hash tells of: the first transaction of the
result with the hash, unless a transaction of the block has it. -/
def originOutside? (names : List String × List (String × String)) (hash : String) :
    Option String :=
  if hash ∈ names.1 then none
  else ((names.2.filter (·.1 == hash)).getLast?.map (·.2)).filter (!·.isEmpty)

theorem originOutside?_eq_some_iff {r : Reading} (hnodup : (r.results.map (·.hash)).Nodup)
    {hash origin : String} :
    originOutside? r.names hash = some origin ↔
      (∀ t ∈ r.transactions, t.hash ≠ hash) ∧ origin ≠ "" ∧
        ∃ s ∈ r.results, s.hash = hash ∧ s.originHash = origin := by
  have hunlisted : hash ∈ r.names.1 ↔ ¬ ∀ t ∈ r.transactions, t.hash ≠ hash := by
    simp [Reading.names]
  unfold originOutside?
  by_cases hknown : hash ∈ r.names.1
  · simp [hknown, hunlisted.mp hknown]
  · have hothers : ∀ t ∈ r.transactions, t.hash ≠ hash := by
      by_contra hsome
      exact hknown (hunlisted.mpr hsome)
    rw [if_neg hknown]
    simp only [Option.filter_eq_some_iff, Option.map_eq_some_iff, Prod.exists, exists_eq_right,
      Bool.not_eq_eq_eq_not, Bool.not_true, String.isEmpty_eq_false_iff]
    constructor
    · rintro ⟨⟨key, hlast⟩, hne⟩
      obtain ⟨hmem, hkey⟩ := List.mem_filter.mp (List.mem_of_getLast? hlast)
      obtain ⟨s, hs, heq⟩ := List.mem_map.mp hmem
      obtain ⟨rfl, rfl⟩ := Prod.mk.inj heq
      exact ⟨hothers, hne, s, hs, beq_iff_eq.mp hkey, rfl⟩
    · rintro ⟨-, hne, s, hs, rfl, rfl⟩
      -- no other result has the hash
      have hkeys : (r.names.2.map Prod.fst).Nodup := by
        rw [Reading.names, List.map_map]
        exact hnodup
      have hmem : (s.hash, s.originHash) ∈ r.names.2 := List.mem_map.mpr ⟨s, hs, rfl⟩
      have hone : r.names.2.filter (·.1 == s.hash) = [(s.hash, s.originHash)] :=
        (filter_eq_singleton hkeys hmem :)
      rw [hone]
      exact ⟨⟨s.hash, rfl⟩, hne⟩

/-! ### One more event

What is known of a transaction is two bits, and merging two reports joins them bit by bit
(`Ending.merge_ofMarks`). An event that tells of another transaction, or of none, has both bits
clear. -/

/-- The identifiers of events that tell of a failure. -/
def failureIdentifiers : List String :=
  ["signalError", "internalVMErrors"]

/-- What is known of a transaction of which some event has told that it has failed, or some event
that it is complete. -/
def Ending.ofMarks (failed complete : Bool) : Option Ending :=
  if failed || complete then
    some { status := if failed then some .fail else none, hasError := failed,
           isComplete := complete }
  else none

/-- Whether an event with one of some identifiers tells of a transaction, where records have some
names. -/
def LoggedEvent.tells (names : List String × List (String × String)) (identifiers : List String)
    (hash : String) (e : LoggedEvent) : Bool :=
  identifiers.contains e.event.identifier && originOutside? names e.hash == some hash

/-- Merging two reports is a disjunction of their marks, which is why their order does not count. -/
theorem Ending.merge_ofMarks (failed complete failed' complete' : Bool) :
    (ofMarks failed complete).merge Ending.merge (ofMarks failed' complete') =
      ofMarks (failed || failed') (complete || complete') := by
  cases failed <;> cases complete <;> cases failed' <;> cases complete' <;> rfl

/-- One identifier sets one mark, or none if the end is an ordinary one: of a transaction that is
not in the block, that is nothing to tell. -/
theorem Ending.ofIdentifier?_eq_ofMarks {identifier : String}
    (h : identifier ∈ endings.identifiers) :
    ofIdentifier? identifier =
      ofMarks (failureIdentifiers.contains identifier)
        ([completedIdentifier].contains identifier) := by
  have hall : ∀ i ∈ endings.identifiers, ofIdentifier? i =
      ofMarks (failureIdentifiers.contains i) ([completedIdentifier].contains i) := by
    simp only [endings]
    decide
  exact hall identifier h

theorem failureIdentifiers_subset : failureIdentifiers ⊆ endings.identifiers := by
  simp only [endings]
  decide

/-- A report is merged into what is known of its own transaction and does not touch any other. -/
theorem get?_addEnding (f : Findings) (origin hash : String) (report : Ending) :
    (f.addEnding origin report).endings.get? hash =
      (f.endings.get? hash).merge Ending.merge
        (if origin = hash then some report else none) := by
  rw [Findings.addEnding, Table.get?_alter]
  split
  · next heq =>
      subst heq
      cases f.endings.get? origin <;> rfl
  · cases f.endings.get? hash <;> rfl

namespace Network

variable {n : Network} {stamp : BlockStamp} {r r' : Reading} {e : LoggedEvent}

/-- An event about an ending tells of the transaction of another block, if the log does. -/
theorem endings_act_endings (e : LoggedEvent) (r : Reading) :
    (endings.act r e).findings.endings =
      match originOutside? r.names e.hash, Ending.ofIdentifier? e.event.identifier with
      | some origin, some report => (r.findings.addEnding origin report).endings
      | _, _ => r.findings.endings := by
  have hknown : r.alterTransaction? e.hash (·.endedBy e.event.identifier) = none ↔
      e.hash ∉ r.names.1 := by
    rw [Reading.alterTransaction?, Option.map_eq_none_iff, alterLast?_eq_none_iff]
    simp [Reading.names]
  simp only [EventFamily.act, endings]
  cases hchanged : r.alterTransaction? e.hash (·.endedBy e.event.identifier) with
  | some changed =>
      have hmem : e.hash ∈ r.names.1 := by
        by_contra hmem
        rw [hknown.mpr hmem] at hchanged
        cases hchanged
      obtain ⟨txs, -, rfl⟩ := Option.map_eq_some_iff.mp hchanged
      rw [originOutside?, if_pos hmem]
      rfl
  | none =>
      have horigin : originOf? e.hash r.results = originOutside? r.names e.hash := by
        rw [originOutside?, if_neg (hknown.mp hchanged), originOf?_eq]
        rfl
      dsimp only
      rw [horigin]
      cases originOutside? r.names e.hash with
      | none => rfl
      | some origin => cases Ending.ofIdentifier? e.event.identifier <;> rfl

/-- One more event adds what it tells to what is known. -/
theorem get?_endings_dispatch (e : LoggedEvent) (r : Reading) {hash : String}
    {failed complete : Bool}
    (h : r.findings.endings.get? hash = Ending.ofMarks failed complete) :
    (EventFamily.dispatch (n.eventFamilies stamp) e r).findings.endings.get? hash =
      Ending.ofMarks (failed || e.tells r.names failureIdentifiers hash)
        (complete || e.tells r.names [completedIdentifier] hash) := by
  rw [← Ending.merge_ofMarks, ← h]
  unfold LoggedEvent.tells
  by_cases hid : e.event.identifier ∈ endings.identifiers
  · rw [EventFamily.dispatch_eq_of_mem (n.disjoint_eventFamilies stamp)
      (n.owns_endings stamp).mem hid, endings_act_endings]
    have hreport := Ending.ofIdentifier?_eq_ofMarks hid
    cases originOutside? r.names e.hash with
    | none => simp [Ending.ofMarks]
    | some origin =>
        -- the event tells of the transaction that is asked for, or of another one
        by_cases heq : origin = hash
        · simp only [heq, BEq.rfl, Bool.and_true, ← hreport]
          cases Ending.ofIdentifier? e.event.identifier with
          | none => simp
          | some report =>
              dsimp only
              rw [get?_addEnding, if_pos rfl]
        · have hother : (some origin == some hash) = false := by simpa using heq
          simp only [hother, Bool.and_false]
          cases Ending.ofIdentifier? e.event.identifier with
          | none => simp [Ending.ofMarks]
          | some report =>
              dsimp only
              rw [get?_addEnding, if_neg heq]
              rfl
  · -- the event is of another family, or of none
    have hfailure : failureIdentifiers.contains e.event.identifier = false := by
      rw [← Bool.not_eq_true, List.contains_iff_mem]
      exact fun hmem => hid (failureIdentifiers_subset hmem)
    have hcompletion : [completedIdentifier].contains e.event.identifier = false := by
      rw [← Bool.not_eq_true, List.contains_iff_mem, List.mem_singleton]
      exact fun heq => hid (by simp [heq, endings])
    have hpart := (n.owns_endings stamp).part_dispatch_of_not_mem (r := r) hid
    have hkeep : (EventFamily.dispatch (n.eventFamilies stamp) e r).findings.endings =
        r.findings.endings :=
      congrArg (·.2.2) hpart
    rw [hkeep, hfailure, hcompletion]
    simp [Ending.ofMarks]

/-- What is known of a transaction after all logs is what some event has told of it. The induction
says so with the names that the reading has, and that they are those of the start. -/
theorem get?_endings_readLogs (n : Network) (stamp : BlockStamp) (logs : List LogEntry)
    (txs : List Transaction) (results : List ContractResult) (hash : String) :
    (n.readLogs stamp logs txs results).findings.endings.get? hash =
      Ending.ofMarks
        ((loggedEvents logs).any
          (·.tells (Reading.names ⟨txs, results, {}⟩) failureIdentifiers hash))
        ((loggedEvents logs).any
          (·.tells (Reading.names ⟨txs, results, {}⟩) [completedIdentifier] hash)) := by
  have hread : (n.readLogs stamp logs txs results).names = Reading.names ⟨txs, results, {}⟩ ∧
      (n.readLogs stamp logs txs results).findings.endings.get? hash =
        Ending.ofMarks
          ((loggedEvents logs).any (·.tells (n.readLogs stamp logs txs results).names
            failureIdentifiers hash))
          ((loggedEvents logs).any (·.tells (n.readLogs stamp logs txs results).names
            [completedIdentifier] hash)) := by
    refine EventFamily.readLogs_induction (r := ⟨txs, results, {}⟩)
      (P := fun es r => r.names = Reading.names ⟨txs, results, {}⟩ ∧
        r.findings.endings.get? hash =
          Ending.ofMarks (es.any (·.tells r.names failureIdentifiers hash))
            (es.any (·.tells r.names [completedIdentifier] hash))) ?_ ?_ ?_ ⟨rfl, rfl⟩ logs
    · rintro es e r ⟨hnames, hget⟩
      have hkeep : (EventFamily.dispatch (n.eventFamilies stamp) e r).names = r.names :=
        (reads_dispatch e r).names_eq
      refine ⟨hkeep.trans hnames, ?_⟩
      rw [get?_endings_dispatch e r hget, hkeep]
      simp only [List.any_append, List.any_cons, List.any_nil, Bool.or_false]
    · rintro es r hash ⟨hnames, hget⟩
      refine ⟨(r.names_markOperations hash).trans hnames, ?_⟩
      rw [r.names_markOperations, Reading.markOperations, findings_alterRecord]
      exact hget
    · rintro es r hash ⟨hnames, hget⟩
      refine ⟨(r.names_markLogs hash).trans hnames, ?_⟩
      rw [r.names_markLogs, Reading.markLogs, findings_alterRecord]
      exact hget
  rw [hread.2, hread.1]

end Network

end ChainIndex
