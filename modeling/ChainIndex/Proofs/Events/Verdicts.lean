import ChainIndex.Proofs.Events.Endings
import Mathlib.Data.List.Induction

/-!
# The last verdict on a transaction

Of the events in the logs of a transaction, the reports of how it has ended are taken one after
another. Those of an ordinary end and of a failure settle the status, and each one replaces the
status that an earlier one has settled, so the last of them counts (`lastVerdict?`). The marks for a
failure and for completion stay once they are set. `Transaction.endsBy_endedByAll` says so of any
reports, and `Network.transactions_readLogs` that reading the logs of a block does nothing else.

Only the last report counts for the status, so lists of reports are taken apart from behind. So are
transactions: a hash means the last transaction that has it. `toldBy` gives each transaction its
reports at one go, and that telling them one by one comes to the same is `alterLast?_toldBy`.

The status and the mark may differ in what they say. A failure that is followed by the report of an
ordinary end leaves a transaction that is a success and is marked for an error
(`Transaction.EndsBy.not_fail_iff`).
-/

namespace ChainIndex

/-! ### Reports -/

/-- The reports that the logs of a record make of how it has ended, in order. -/
def reportsOf (logs : List LogEntry) (hash : String) : List String :=
  ((logs.filter (·.hash == hash)).flatMap fun l => l.log.events.map (·.identifier)).filter
    endings.identifiers.contains

/-- The last report that settles the status: one of an ordinary end, or of a failure. -/
def lastVerdict? (reports : List String) : Option String :=
  (reports.filter fun i => i == writtenIdentifier || failureIdentifiers.contains i).getLast?

/-- How a transaction ends by reports, where it has had a status before. -/
structure Transaction.EndsBy (reports : List String) (start : TxStatus) (t : Transaction) :
    Prop where
  failed : ∀ i ∈ failureIdentifiers, lastVerdict? reports = some i → t.status = .fail
  written : lastVerdict? reports = some writtenIdentifier → t.status = .success
  unsettled : lastVerdict? reports = none → t.status = start
  hasError : t.errorEvent = true ↔ ∃ i ∈ failureIdentifiers, i ∈ reports
  isComplete : t.completedEvent = true ↔ completedIdentifier ∈ reports

/-- A transaction after reports, one after another. -/
def Transaction.endedByAll (reports : List String) (t : Transaction) : Transaction :=
  reports.foldl (fun t i => t.endedBy i) t

/-- Transactions after reports for each hash; the last transaction with a hash is meant. -/
def toldBy (reports : String → List String) : List Transaction → List Transaction
  | [] => []
  | t :: rest =>
    t.endedByAll (if rest.any (·.hash == t.hash) then [] else reports t.hash) ::
      toldBy reports rest

/-! ### One report more -/

/-- The last verdict is that of the last report, if that is a verdict, and otherwise it is the one
before. Completion is no verdict. -/
theorem lastVerdict?_append_singleton (reports : List String) (i : String) :
    lastVerdict? (reports ++ [i]) =
      if i = writtenIdentifier ∨ i ∈ failureIdentifiers then some i else lastVerdict? reports := by
  unfold lastVerdict?
  rw [List.filter_append]
  by_cases hi : i = writtenIdentifier ∨ i ∈ failureIdentifiers
  · rw [if_pos hi, List.filter_cons_of_pos (by simpa using hi)]
    simp
  · rw [if_neg hi, List.filter_cons_of_neg (by simpa using hi)]
    simp

theorem mem_of_lastVerdict? {reports : List String} {i : String}
    (h : lastVerdict? reports = some i) :
    i ∈ reports ∧ (i = writtenIdentifier ∨ i ∈ failureIdentifiers) := by
  obtain ⟨hmem, hverdict⟩ := List.mem_filter.mp (List.mem_of_getLast? h)
  exact ⟨hmem, by simpa using hverdict⟩

theorem lastVerdict?_eq_none_iff {reports : List String} :
    lastVerdict? reports = none ↔
      ∀ i ∈ reports, ¬ (i = writtenIdentifier ∨ i ∈ failureIdentifiers) := by
  simp [lastVerdict?]

namespace Transaction

variable {reports : List String} {start : TxStatus} {t : Transaction}

theorem endedByAll_append_singleton (reports : List String) (i : String) (t : Transaction) :
    t.endedByAll (reports ++ [i]) = (t.endedByAll reports).endedBy i := by
  rw [endedByAll, List.foldl_append]
  rfl

theorem hash_endedByAll (reports : List String) (t : Transaction) :
    (t.endedByAll reports).hash = t.hash := by
  induction reports using List.reverseRecOn with
  | nil => rfl
  | append_singleton rest i ih => rw [endedByAll_append_singleton, hash_endedBy, ih]

theorem unread_endedByAll (reports : List String) (t : Transaction) :
    (t.endedByAll reports).unread = t.unread := by
  induction reports using List.reverseRecOn with
  | nil => rfl
  | append_singleton rest i ih => rw [endedByAll_append_singleton, unread_endedBy, ih]

theorem endedBy_completed (t : Transaction) :
    t.endedBy completedIdentifier = { t with completedEvent := true } :=
  if_pos rfl

theorem endedBy_written (t : Transaction) :
    t.endedBy writtenIdentifier = { t with status := .success } := by
  rw [endedBy, if_neg (by decide), if_pos rfl]

theorem endedBy_failure {i : String} (hi : i ∈ failureIdentifiers) (t : Transaction) :
    t.endedBy i = { t with status := .fail, errorEvent := true } := by
  have hothers : ∀ j ∈ failureIdentifiers, j ≠ completedIdentifier ∧ j ≠ writtenIdentifier := by
    decide
  rw [endedBy, if_neg (hothers i hi).1, if_neg (hothers i hi).2]

/-- One report more settles the status anew or leaves it, and sets the mark that it stands for. -/
theorem EndsBy.endedBy (h : t.EndsBy reports start) {i : String}
    (hi : i ∈ endings.identifiers) : (t.endedBy i).EndsBy (reports ++ [i]) start := by
  have hkinds : ∀ j ∈ endings.identifiers,
      j = completedIdentifier ∨ j = writtenIdentifier ∨ j ∈ failureIdentifiers := by
    simp only [endings]
    decide
  have hwritten : writtenIdentifier ∉ failureIdentifiers := by decide
  have hcompleted : completedIdentifier ∉ failureIdentifiers := by decide
  -- reports of other kinds leave open whether one tells of a failure
  have hothers : ∀ j, j ∉ failureIdentifiers →
      ((∃ k ∈ failureIdentifiers, k ∈ reports ++ [j]) ↔
        ∃ k ∈ failureIdentifiers, k ∈ reports) := by
    intro j hj
    refine exists_congr fun k => and_congr_right fun hk => ?_
    have hne : k ≠ j := fun heq => hj (heq ▸ hk)
    simp [hne]
  have hverdict := lastVerdict?_append_singleton reports i
  obtain ⟨hfailed, hsuccess, hunsettled, herror, hcomplete⟩ := h
  -- completion leaves the verdict as it is, an ordinary end and a failure are the last one now
  rcases hkinds i hi with rfl | rfl | hfailure
  · rw [if_neg (by decide)] at hverdict
    rw [endedBy_completed]
    refine ⟨hverdict ▸ hfailed, hverdict ▸ hsuccess, hverdict ▸ hunsettled, ?_, ?_⟩
    · rw [hothers _ hcompleted]
      exact herror
    · simp
  · rw [if_pos (.inl rfl)] at hverdict
    rw [endedBy_written]
    refine ⟨?_, fun _ => rfl, ?_, ?_, ?_⟩
    · intro j hj hlast
      rw [hverdict, Option.some.injEq] at hlast
      exact absurd (hlast ▸ hj) hwritten
    · rw [hverdict]
      intro hnone
      cases hnone
    · rw [hothers _ hwritten]
      exact herror
    · have hne : completedIdentifier ≠ writtenIdentifier := by decide
      simp [hcomplete, hne]
  · rw [if_pos (.inr hfailure)] at hverdict
    rw [endedBy_failure hfailure]
    refine ⟨fun _ _ _ => rfl, ?_, ?_, ?_, ?_⟩
    · rw [hverdict, Option.some.injEq]
      intro heq
      exact absurd (heq ▸ hfailure) hwritten
    · rw [hverdict]
      intro hnone
      cases hnone
    · simp only [List.mem_append, List.mem_singleton, true_iff]
      exact ⟨i, hfailure, .inr rfl⟩
    · have hne : completedIdentifier ≠ i := fun heq => hcompleted (heq ▸ hfailure)
      simp [hcomplete, hne]

/-- Reports tell of a transaction what the last verdict and the marks say. -/
theorem endsBy_endedByAll (hreports : ∀ i ∈ reports, i ∈ endings.identifiers)
    (herror : t.errorEvent = false) (hcomplete : t.completedEvent = false) :
    (t.endedByAll reports).EndsBy reports t.status := by
  induction reports using List.reverseRecOn with
  | nil =>
      have hnone : lastVerdict? [] = none := rfl
      refine ⟨?_, ?_, fun _ => rfl, ?_, ?_⟩
      · simp [hnone]
      · simp [hnone]
      · simp [endedByAll, herror]
      · simp [endedByAll, hcomplete]
  | append_singleton rest i ih =>
      rw [endedByAll_append_singleton]
      refine (ih ?_).endedBy (hreports i (by simp))
      intro j hj
      exact hreports j (List.mem_append_left _ hj)

/-- Marks for logs and operations do not concern the end. -/
theorem EndsBy.of_unmarked_eq {u : Transaction} (h : t.EndsBy reports start)
    (heq : u.unmarked = t.unmarked) : u.EndsBy reports start := by
  have hstatus : u.status = t.status :=
    (congrArg status heq :)
  have herror : u.errorEvent = t.errorEvent :=
    (congrArg errorEvent heq :)
  have hcomplete : u.completedEvent = t.completedEvent :=
    (congrArg completedEvent heq :)
  obtain ⟨hfailed, hwritten, hunsettled, hfailure, hcompletion⟩ := h
  exact ⟨hstatus ▸ hfailed, hstatus ▸ hwritten, hstatus ▸ hunsettled, herror ▸ hfailure,
    hcomplete ▸ hcompletion⟩

/-- A failure that is reported stays, unless an ordinary end is reported after it. -/
theorem EndsBy.not_fail_iff (h : t.EndsBy reports start) (herror : t.errorEvent = true) :
    t.status ≠ .fail ↔ lastVerdict? reports = some writtenIdentifier := by
  constructor
  · intro hstatus
    obtain ⟨i, hi, hmem⟩ := h.hasError.mp herror
    cases hlast : lastVerdict? reports with
    | none => exact absurd (.inr hi) (lastVerdict?_eq_none_iff.mp hlast i hmem)
    | some j =>
        rcases (mem_of_lastVerdict? hlast).2 with rfl | hfailure
        · rfl
        · exact absurd (h.failed j hfailure hlast) hstatus
  · intro hlast
    rw [h.written hlast]
    decide

end Transaction

/-! ### Transactions after events -/

theorem map_hash_toldBy (reports : String → List String) (txs : List Transaction) :
    (toldBy reports txs).map (·.hash) = txs.map (·.hash) := by
  induction txs with
  | nil => rfl
  | cons t rest ih =>
      rw [toldBy, List.map_cons, List.map_cons, ih, Transaction.hash_endedByAll]

theorem toldBy_nothing (txs : List Transaction) : toldBy (fun _ => []) txs = txs := by
  induction txs with
  | nil => rfl
  | cons t rest ih =>
      rw [toldBy, ih, ite_self]
      rfl

/-- Telling transactions leaves each in its place, so what is told of one is found by position. -/
theorem getElem?_toldBy (reports : String → List String) (front : List Transaction)
    (t : Transaction) (later : List Transaction) :
    (toldBy reports (front ++ t :: later))[front.length]? =
      some (t.endedByAll
        (if later.any (·.hash == t.hash) then [] else reports t.hash)) := by
  induction front with
  | nil => rfl
  | cons s rest ih =>
      rw [List.cons_append, toldBy, List.length_cons, List.getElem?_cons_succ, ih]

/-- One report more for a hash goes to the last transaction with it. Telling transactions keeps
their hashes, so it is the same transaction that is found before and after. -/
theorem alterLast?_toldBy (reports : String → List String) (hash i : String)
    (txs : List Transaction) :
    (alterLast? (·.hash == hash) (·.endedBy i) (toldBy reports txs)).getD (toldBy reports txs) =
      toldBy (fun key => if key = hash then reports key ++ [i] else reports key) txs := by
  induction txs with
  | nil => rfl
  | cons t rest ih =>
      have hknown : alterLast? (·.hash == hash) (·.endedBy i) (toldBy reports rest) = none ↔
          rest.any (·.hash == hash) = false := by
        have hany : rest.any (·.hash == hash) = (toldBy reports rest).any (·.hash == hash) := by
          have hmap := congrArg (List.any · (· == hash)) (map_hash_toldBy reports rest)
          simpa only [List.any_map, Function.comp_def] using hmap.symm
        rw [alterLast?_eq_none_iff, hany, List.any_eq_false]
        simp
      rw [toldBy, alterLast?, toldBy, ← ih]
      cases hrest : alterLast? (·.hash == hash) (·.endedBy i) (toldBy reports rest) with
      | some changed =>
          -- a later transaction has the hash, so this one is not told, whatever its hash
          have hany : rest.any (·.hash == hash) = true := by
            rw [← Bool.not_eq_false, ← hknown, hrest]
            exact Option.some_ne_none changed
          by_cases hhash : t.hash = hash
          · simp [hhash, hany]
          · simp [hhash]
      | none =>
          have hany := hknown.mp hrest
          by_cases hhash : t.hash = hash
          · simp [hhash, hany, Transaction.hash_endedByAll,
              Transaction.endedByAll_append_singleton]
          · simp [hhash, Transaction.hash_endedByAll]

/-- If no transaction has the hash of the event, then all of them stay as they are, and whatever the
event tells goes to the findings. -/
theorem transactions_act_endings (r : Reading) (e : LoggedEvent) :
    (endings.act r e).transactions =
      (alterLast? (·.hash == e.hash) (·.endedBy e.event.identifier) r.transactions).getD
        r.transactions := by
  simp only [EventFamily.act, endings, Reading.alterTransaction?]
  cases alterLast? (·.hash == e.hash) (·.endedBy e.event.identifier) r.transactions with
  | some txs => rfl
  | none =>
      simp only [Option.map_none]
      split <;> rfl

/-- Events of endings tell of each transaction, in order, what their identifiers say. -/
theorem transactions_foldl_endings (es : List LoggedEvent) (r : Reading) :
    (es.foldl endings.act r).transactions =
      toldBy (fun hash => (es.filter (·.hash == hash)).map (·.event.identifier))
        r.transactions := by
  induction es using List.reverseRecOn with
  | nil => exact (toldBy_nothing r.transactions).symm
  | append_singleton rest e ih =>
      rw [List.foldl_append, List.foldl_cons, List.foldl_nil, transactions_act_endings, ih,
        alterLast?_toldBy]
      congr 1
      funext key
      by_cases hkey : key = e.hash
      · simp [hkey]
      · simp [hkey, Ne.symm hkey]

/-! ### A whole block -/

/-- The reports of a hash may be picked out log by log, as the statements do, or event by event, as
reading does. -/
theorem reportsOf_eq (logs : List LogEntry) (hash : String) :
    reportsOf logs hash =
      (((loggedEvents logs).filter endings.lists).filter (·.hash == hash)).map
        (·.event.identifier) := by
  induction logs with
  | nil => rfl
  | cons l rest ih =>
      have hevents : loggedEvents (l :: rest) =
          l.log.events.map (⟨l.hash, l.log.address, ·⟩) ++ loggedEvents rest := rfl
      rw [hevents, List.filter_append, List.filter_append, List.map_append, ← ih, reportsOf,
        reportsOf]
      by_cases hhash : l.hash = hash
      · rw [List.filter_cons_of_pos (by simpa using hhash), List.flatMap_cons, List.filter_append]
        simp [List.filter_map, Function.comp_def, EventFamily.lists, hhash]
      · rw [List.filter_cons_of_neg (by simpa using hhash)]
        simp [List.filter_map, Function.comp_def, hhash]

theorem mem_identifiers_of_mem_reportsOf {logs : List LogEntry} {hash i : String}
    (hi : i ∈ reportsOf logs hash) : i ∈ endings.identifiers :=
  List.contains_iff_mem.mp (List.mem_filter.mp hi).2

/-- Reading the logs of a block tells of its transactions what the logs report, apart from marks. -/
theorem Network.transactions_readLogs (n : Network) (stamp : BlockStamp) (logs : List LogEntry)
    (txs : List Transaction) (results : List ContractResult) :
    (n.readLogs stamp logs txs results).transactions.map (·.unmarked) =
      (toldBy (reportsOf logs) txs).map (·.unmarked) := by
  have hpart := (n.owns_endings stamp).part_readLogs (n.disjoint_eventFamilies stamp)
    ⟨txs, results, {}⟩ logs
  have htxs := (Prod.mk.inj hpart).1
  rw [transactions_foldl_endings] at htxs
  simp only [← reportsOf_eq] at htxs
  exact htxs

end ChainIndex
