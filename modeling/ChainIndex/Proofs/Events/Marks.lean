import ChainIndex.Proofs.Events.Verdicts

/-!
# What reading logs does to records

A hash names the last transaction that carries it, or, when no transaction does, the last result
that does (`NamesTransaction`, `NamesResult`). Reading the logs of a block keeps all records in
their places. It marks a record for logs if and only if some log names it, and for operations if and
only if such a log has an event; a transaction ends differently only by a report in such a log; and
nothing else of any record changes (`Network.readLogs_marks`).

A record is named by its place, not by its hash, since a hash may be carried by several records and
then names the last of them. The hashes stay in their places while the logs are read, so what a hash
names can be asked of the records as they are at the start.

Four flags are to be followed through the logs: two marks, each of a transaction and of a result.
They differ only in what sets them, so `Network.IsFlag` says what is needed of one flag, and the
induction over the logs is done once (`IsFlag.readLogs`).
-/

namespace ChainIndex

/-! ### The record that a hash names -/

/-- A key stands at a position of a list and nowhere behind it. -/
def IsLastAt (keys : List String) (key : String) (i : Nat) : Prop :=
  keys[i]? = some key ∧ key ∉ keys.drop (i + 1)

instance (keys : List String) (key : String) (i : Nat) : Decidable (IsLastAt keys key i) :=
  inferInstanceAs (Decidable (_ ∧ _))

/-- A hash names the transaction at a position. -/
def NamesTransaction (txs : List Transaction) (hash : String) (i : Nat) : Prop :=
  IsLastAt (txs.map (·.hash)) hash i

instance (txs : List Transaction) (hash : String) (i : Nat) :
    Decidable (NamesTransaction txs hash i) :=
  inferInstanceAs (Decidable (IsLastAt _ _ _))

/-- A hash names the result at a position. -/
def NamesResult (txs : List Transaction) (results : List ContractResult) (hash : String)
    (i : Nat) : Prop :=
  hash ∉ txs.map (·.hash) ∧ IsLastAt (results.map (·.hash)) hash i

instance (txs : List Transaction) (results : List ContractResult) (hash : String) (i : Nat) :
    Decidable (NamesResult txs results hash i) :=
  inferInstanceAs (Decidable (_ ∧ _))

/-! ### What logs do to one record -/

/-- The identifiers of events that report how a transaction has ended. -/
def reportIdentifiers : List String :=
  ["writeLog", "signalError", "internalVMErrors", "completedTxEvent"]

theorem mem_reportIdentifiers_iff {i : String} :
    i ∈ reportIdentifiers ↔ i ∈ endings.identifiers := by
  simp only [reportIdentifiers, endings, writtenIdentifier, completedIdentifier, List.mem_cons]
  tauto

/-- How a transaction has ended. -/
def Transaction.ending (t : Transaction) : TxStatus × Bool × Bool :=
  (t.status, t.errorEvent, t.completedEvent)

/-- A transaction `t` has become `u` by logs of its own. -/
structure Transaction.MarkedBy (own : LogEntry → Prop) (t u : Transaction) : Prop where
  hasLogs : u.hasLogs = true ↔ t.hasLogs = true ∨ ∃ l, own l
  hasOperations : u.hasOperations = true ↔
    t.hasOperations = true ∨ ∃ l, own l ∧ l.log.events ≠ []
  ending : u.ending ≠ t.ending →
    ∃ l, own l ∧ ∃ e ∈ l.log.events, e.identifier ∈ reportIdentifiers
  rest : u.unread = t.unread

/-- A result `s` has become `u` by logs of its own. -/
structure ContractResult.MarkedBy (own : LogEntry → Prop) (s u : ContractResult) : Prop where
  hasLogs : u.hasLogs = true ↔ s.hasLogs = true ∨ ∃ l, own l
  hasOperations : u.hasOperations = true ↔
    s.hasOperations = true ∨ ∃ l, own l ∧ l.log.events ≠ []
  rest : u.unread = s.unread

/-- What logs make of the records of a block: each one is in its place, marked by those logs that
name it. -/
structure Reading.MarkedBy (logs : List LogEntry) (txs : List Transaction)
    (results : List ContractResult) (r : Reading) : Prop where
  length_transactions : r.transactions.length = txs.length
  length_results : r.results.length = results.length
  transaction : ∀ (i : Nat) (t : Transaction), txs[i]? = some t →
    ∃ u, r.transactions[i]? = some u ∧
      t.MarkedBy (fun l => l ∈ logs ∧ NamesTransaction txs l.hash i) u
  result : ∀ (i : Nat) (s : ContractResult), results[i]? = some s →
    ∃ u, r.results[i]? = some u ∧
      s.MarkedBy (fun l => l ∈ logs ∧ NamesResult txs results l.hash i) u

/-! ### Changing the record that a hash names -/

theorem isLastAt_cons_zero {keys : List String} {k key : String} :
    IsLastAt (k :: keys) key 0 ↔ k = key ∧ key ∉ keys := by
  simp [IsLastAt]

theorem isLastAt_cons_succ {keys : List String} {k key : String} {i : Nat} :
    IsLastAt (k :: keys) key (i + 1) ↔ IsLastAt keys key i := by
  simp [IsLastAt]

theorem IsLastAt.mem {keys : List String} {key : String} {i : Nat} (h : IsLastAt keys key i) :
    key ∈ keys :=
  List.mem_of_getElem? h.1

section

variable {α : Type} {k : α → String} {f : α → α} {key : String}

theorem alterLast?_key_eq_none_iff {as : List α} :
    alterLast? (k · == key) f as = none ↔ key ∉ as.map k := by
  rw [alterLast?_eq_none_iff]
  simp

/-- The last element with a key changes, and no other one does. -/
theorem getElem?_alterLast? (k : α → String) (f : α → α) (key : String) (as : List α) (i : Nat) :
    ((alterLast? (k · == key) f as).getD as)[i]? =
      as[i]?.map fun a => if IsLastAt (as.map k) key i then f a else a := by
  induction as generalizing i with
  | nil => rfl
  | cons a rest ih =>
      rw [alterLast?, List.map_cons]
      cases hrest : alterLast? (k · == key) f rest with
      | some changed =>
          rw [hrest] at ih
          -- the key stands further behind
          have hlater : key ∈ rest.map k := by
            by_contra hnone
            rw [alterLast?_key_eq_none_iff.mpr hnone] at hrest
            cases hrest
          cases i with
          | zero => simp [isLastAt_cons_zero, hlater]
          | succ i => simpa [isLastAt_cons_succ] using ih i
      | none =>
          rw [hrest] at ih
          have hnone : key ∉ rest.map k := alterLast?_key_eq_none_iff.mp hrest
          cases i with
          | zero => by_cases hkey : k a = key <;> simp [isLastAt_cons_zero, hkey, hnone]
          | succ i =>
              have hbehind : ¬ IsLastAt (rest.map k) key i := fun h => hnone h.mem
              by_cases hkey : k a = key <;> simp [isLastAt_cons_succ, hkey, hbehind]

end

namespace Reading

variable {r : Reading} {hash : String} {f : Transaction → Transaction}
  {g : ContractResult → ContractResult}

/-- What a change of the record with a hash does to the transaction in one place. Stated so, it can
be iterated: the names do not change, and so neither does the place that is meant. -/
theorem getElem?_transactions_alterRecord (i : Nat) :
    (r.alterRecord hash f g).transactions[i]? =
      r.transactions[i]?.map fun t =>
        if NamesTransaction r.transactions hash i then f t else t := by
  have hone := getElem?_alterLast? (·.hash) f hash r.transactions i
  obtain ⟨_, htxs, h⟩ | ⟨htxs, _, -, h⟩ | ⟨htxs, -, h⟩ :=
    Network.alterRecord_cases r hash f g <;>
    rw [htxs] at hone <;> rw [h] <;> exact hone

theorem getElem?_results_alterRecord (i : Nat) :
    (r.alterRecord hash f g).results[i]? =
      r.results[i]?.map fun s =>
        if NamesResult r.transactions r.results hash i then g s else s := by
  have hone := getElem?_alterLast? (·.hash) g hash r.results i
  unfold NamesResult
  obtain ⟨txs, htxs, h⟩ | ⟨htxs, _, hresults, h⟩ | ⟨htxs, hresults, h⟩ :=
    Network.alterRecord_cases r hash f g <;> rw [h]
  · -- a transaction has the hash, so no result is meant
    have hmem : ¬ hash ∉ r.transactions.map (·.hash) := by
      rw [← alterLast?_key_eq_none_iff (f := f), htxs]
      exact Option.some_ne_none txs
    simp only [hmem, false_and, if_false, Option.map_id']
  · have hnone : hash ∉ r.transactions.map (·.hash) := alterLast?_key_eq_none_iff.mp htxs
    rw [hresults] at hone
    simp only [hnone, not_false_eq_true, true_and]
    exact hone
  · have hnone : hash ∉ r.transactions.map (·.hash) := alterLast?_key_eq_none_iff.mp htxs
    rw [hresults] at hone
    simp only [hnone, not_false_eq_true, true_and]
    exact hone

/-- Records with the same names are named alike. -/
theorem namesTransaction_iff {r s : Reading} (h : r.names = s.names) {hash : String} {i : Nat} :
    NamesTransaction r.transactions hash i ↔ NamesTransaction s.transactions hash i := by
  have htxs : r.transactions.map (·.hash) = s.transactions.map (·.hash) := (Prod.mk.inj h).1
  rw [NamesTransaction, NamesTransaction, htxs]

theorem namesResult_iff {r s : Reading} (h : r.names = s.names) {hash : String} {i : Nat} :
    NamesResult r.transactions r.results hash i ↔ NamesResult s.transactions s.results hash i := by
  have htxs : r.transactions.map (·.hash) = s.transactions.map (·.hash) := (Prod.mk.inj h).1
  have hresults : r.results.map (·.hash) = s.results.map (·.hash) := by
    have hkeys := congrArg (List.map Prod.fst) (Prod.mk.inj h).2
    rw [List.map_map, List.map_map] at hkeys
    exact hkeys
  rw [NamesResult, NamesResult, htxs, hresults]

/-- The transaction at a position is marked, if the hash names it or it has been marked before. -/
theorem getElem?_mark_transactions_iff {mark : Transaction → Bool} (hf : ∀ t, mark (f t) = true)
    {i : Nat} :
    ((r.alterRecord hash f g).transactions.map mark)[i]? = some true ↔
      (r.transactions.map mark)[i]? = some true ∨ NamesTransaction r.transactions hash i := by
  rw [List.getElem?_map, List.getElem?_map, getElem?_transactions_alterRecord]
  by_cases hnamed : NamesTransaction r.transactions hash i
  · have hthere : (r.transactions.map (·.hash))[i]? = some hash := hnamed.1
    rw [List.getElem?_map, Option.map_eq_some_iff] at hthere
    obtain ⟨t, ht, -⟩ := hthere
    simp [ht, hnamed, hf]
  · simp [hnamed]

/-- A mark is set and never cleared, so after a change it is there if it was there before or if the
result is the one that is meant. -/
theorem getElem?_mark_results_iff {mark : ContractResult → Bool} (hg : ∀ s, mark (g s) = true)
    {i : Nat} :
    ((r.alterRecord hash f g).results.map mark)[i]? = some true ↔
      (r.results.map mark)[i]? = some true ∨ NamesResult r.transactions r.results hash i := by
  rw [List.getElem?_map, List.getElem?_map, getElem?_results_alterRecord]
  by_cases hnamed : NamesResult r.transactions r.results hash i
  · have hthere : (r.results.map (·.hash))[i]? = some hash := hnamed.2.1
    rw [List.getElem?_map, Option.map_eq_some_iff] at hthere
    obtain ⟨t, ht, -⟩ := hthere
    simp [ht, hnamed, hg]
  · simp [hnamed]

end Reading

/-! ### Events mark nothing

What an event tells goes into the findings or into how a transaction ends. Marks are set by the
reader of logs itself, around each event and at the end of each log. -/

/-- The marks of a transaction, for operations and for logs. -/
def Transaction.marks (t : Transaction) : Bool × Bool :=
  (t.hasOperations, t.hasLogs)

theorem Transaction.marks_endedBy (identifier : String) (t : Transaction) :
    (t.endedBy identifier).marks = t.marks := by
  unfold endedBy
  split
  · rfl
  · split <;> rfl

namespace Network

variable {n : Network} {stamp : BlockStamp}

theorem results_act_endings (e : LoggedEvent) (r : Reading) :
    (endings.act r e).results = r.results := by
  obtain ⟨_, _, h⟩ := endings_frame e r
  rw [h]

/-- No family marks a record, or changes a result at all. -/
theorem marks_act (hf : f ∈ n.eventFamilies stamp) (e : LoggedEvent) (r : Reading) :
    (f.act r e).transactions.map (·.marks) = r.transactions.map (·.marks) ∧
      (f.act r e).results = r.results := by
  simp only [eventFamilies, List.mem_cons, List.not_mem_nil, or_false] at hf
  rcases hf with rfl | rfl | rfl | rfl | rfl | rfl | rfl
  · obtain ⟨_, _, heq⟩ := n.deploys_frame stamp e r
    rw [heq]
    exact ⟨rfl, rfl⟩
  · refine ⟨?_, results_act_endings e r⟩
    rw [transactions_act_endings]
    cases htxs : alterLast? (·.hash == e.hash) (·.endedBy e.event.identifier) r.transactions with
    | some txs => exact map_alterLast? (Transaction.marks_endedBy _) htxs
    | none => rfl
  · obtain ⟨_, heq⟩ := n.itemUpdates_frame e r
    rw [heq]
    exact ⟨rfl, rfl⟩
  · obtain ⟨_, heq⟩ := n.roleChanges_frame e r
    rw [heq]
    exact ⟨rfl, rfl⟩
  · obtain ⟨_, heq⟩ := n.issues_frame stamp e r
    rw [heq]
    exact ⟨rfl, rfl⟩
  · obtain ⟨_, heq⟩ := n.delegations_frame stamp e r
    rw [heq]
    exact ⟨rfl, rfl⟩
  · obtain ⟨_, _, heq⟩ := n.items_frame stamp e r
    rw [heq]
    exact ⟨rfl, rfl⟩

/-- No event sets a mark by what it tells. Marks come of logs and events being there at all. -/
theorem marks_dispatch (n : Network) (stamp : BlockStamp) (e : LoggedEvent) (r : Reading) :
    (EventFamily.dispatch (n.eventFamilies stamp) e r).transactions.map (·.marks) =
        r.transactions.map (·.marks) ∧
      (EventFamily.dispatch (n.eventFamilies stamp) e r).results = r.results := by
  refine EventFamily.dispatch_cases
    (P := fun s => s.transactions.map (·.marks) = r.transactions.map (·.marks) ∧
      s.results = r.results) ?_ ⟨rfl, rfl⟩
  intro f hf _ r' hread
  have hact : f.act r e = r' := by rw [EventFamily.act, hread, Option.getD_some]
  rw [← hact]
  exact marks_act hf e r

/-! ### Flags -/

/-- A flag that nothing but marking sets, where records have the names that they have at the start:
noting operations sets it for some hashes, and noting logs for some. -/
structure IsFlag (n : Network) (stamp : BlockStamp) (start : Reading) (flag : Reading → Prop)
    (operations marks : String → Prop) : Prop where
  event : ∀ e r, flag (EventFamily.dispatch (n.eventFamilies stamp) e r) ↔ flag r
  operations : ∀ hash r, r.names = start.names →
    (flag (r.markOperations hash) ↔ flag r ∨ operations hash)
  marks : ∀ hash r, r.names = start.names → (flag (r.markLogs hash) ↔ flag r ∨ marks hash)

namespace IsFlag

variable {start r : Reading} {flag : Reading → Prop} {operations marks : String → Prop}

/-- One log sets the flag by its events, of which one suffices, or by itself. -/
theorem readLog (h : n.IsFlag stamp start flag operations marks) (hr : r.names = start.names)
    (l : LogEntry) :
    flag (EventFamily.readLog (n.eventFamilies stamp) r l) ↔
      flag r ∨ l.log.events ≠ [] ∧ operations l.hash ∨ marks l.hash := by
  -- over the events of the log, names stay along, so that the next event finds the same records
  have hevents : ∀ (events : List Event) (r : Reading), r.names = start.names →
      let s := events.foldl
        (fun r event => (EventFamily.dispatch (n.eventFamilies stamp)
          ⟨l.hash, l.log.address, event⟩ r).markOperations l.hash) r
      s.names = start.names ∧ (flag s ↔ flag r ∨ events ≠ [] ∧ operations l.hash) := by
    intro events
    induction events with
    | nil =>
        intro r hr
        exact ⟨hr, by simp⟩
    | cons event rest ih =>
        intro r hr
        have hreads : n.Reads stamp r (EventFamily.dispatch (n.eventFamilies stamp)
          ⟨l.hash, l.log.address, event⟩ r) := reads_dispatch _ r
        have hread := hreads.names_eq.trans hr
        have hmarked := (Reading.names_markOperations _ l.hash).trans hread
        obtain ⟨hnames, hflag⟩ := ih _ hmarked
        refine ⟨hnames, ?_⟩
        rw [List.foldl_cons, hflag, h.operations _ _ hread, h.event]
        tauto
  obtain ⟨hnames, hflag⟩ := hevents l.log.events r hr
  rw [EventFamily.readLog, h.marks _ _ hnames, hflag, or_assoc]

/-- Logs set the flag if one of them does. -/
theorem readLogs (h : n.IsFlag stamp start flag operations marks) (logs : List LogEntry) :
    flag (EventFamily.readLogs (n.eventFamilies stamp) start logs) ↔
      flag start ∨ ∃ l ∈ logs, l.log.events ≠ [] ∧ operations l.hash ∨ marks l.hash := by
  have hlogs : ∀ r, r.names = start.names →
      (flag (EventFamily.readLogs (n.eventFamilies stamp) r logs) ↔
        flag r ∨ ∃ l ∈ logs, l.log.events ≠ [] ∧ operations l.hash ∨ marks l.hash) := by
    induction logs with
    | nil =>
        intro r hr
        simp [EventFamily.readLogs]
    | cons l rest ih =>
        intro r hr
        have hreads : n.Reads stamp r (EventFamily.readLog (n.eventFamilies stamp) r l) :=
          reads_readLog r l
        have hrest := ih _ (hreads.names_eq.trans hr)
        rw [EventFamily.readLogs] at hrest
        rw [EventFamily.readLogs, List.foldl_cons, hrest, h.readLog hr]
        simp only [List.mem_cons, exists_eq_or_imp, or_assoc]
  exact hlogs start rfl

end IsFlag

variable {start : Reading}

/-- A mark of a transaction that is set with the operations or with the logs is a flag, and a hash
sets it by naming the transaction. -/
theorem isFlag_hasLogs (n : Network) (stamp : BlockStamp) (start : Reading) (i : Nat) :
    n.IsFlag stamp start (fun r => (r.transactions.map (·.hasLogs))[i]? = some true)
      (fun _ => False) (NamesTransaction start.transactions · i) where
  event e r := by
    have hmarks := congrArg (List.map Prod.snd) (n.marks_dispatch stamp e r).1
    rw [List.map_map, List.map_map] at hmarks
    exact iff_of_eq (congrArg (·[i]? = some true) hmarks)
  operations hash r _ := by
    have hkeep : (r.markOperations hash).transactions.map (·.hasLogs) =
        r.transactions.map (·.hasLogs) := map_transactions_alterRecord r hash (fun _ => by rfl) _
    rw [hkeep, or_false]
  marks hash r hr := by
    rw [← Reading.namesTransaction_iff hr]
    exact Reading.getElem?_mark_transactions_iff fun _ => rfl

theorem isFlag_hasOperations (n : Network) (stamp : BlockStamp) (start : Reading) (i : Nat) :
    n.IsFlag stamp start (fun r => (r.transactions.map (·.hasOperations))[i]? = some true)
      (NamesTransaction start.transactions · i) (fun _ => False) where
  event e r := by
    have hmarks := congrArg (List.map Prod.fst) (n.marks_dispatch stamp e r).1
    rw [List.map_map, List.map_map] at hmarks
    exact iff_of_eq (congrArg (·[i]? = some true) hmarks)
  operations hash r hr := by
    rw [← Reading.namesTransaction_iff hr]
    exact Reading.getElem?_mark_transactions_iff fun _ => rfl
  marks hash r _ := by
    have hkeep : (r.markLogs hash).transactions.map (·.hasOperations) =
        r.transactions.map (·.hasOperations) :=
      map_transactions_alterRecord r hash (fun _ => by rfl) _
    rw [hkeep, or_false]

theorem isFlag_hasLogs_results (n : Network) (stamp : BlockStamp) (start : Reading) (i : Nat) :
    n.IsFlag stamp start (fun r => (r.results.map (·.hasLogs))[i]? = some true)
      (fun _ => False) (NamesResult start.transactions start.results · i) where
  event e r := by rw [(n.marks_dispatch stamp e r).2]
  operations hash r _ := by
    have hkeep : (r.markOperations hash).results.map (·.hasLogs) = r.results.map (·.hasLogs) :=
      map_results_alterRecord r hash _ fun _ => by rfl
    rw [hkeep, or_false]
  marks hash r hr := by
    rw [← Reading.namesResult_iff hr]
    exact Reading.getElem?_mark_results_iff fun _ => rfl

theorem isFlag_hasOperations_results (n : Network) (stamp : BlockStamp) (start : Reading)
    (i : Nat) :
    n.IsFlag stamp start (fun r => (r.results.map (·.hasOperations))[i]? = some true)
      (NamesResult start.transactions start.results · i) (fun _ => False) where
  event e r := by rw [(n.marks_dispatch stamp e r).2]
  operations hash r hr := by
    rw [← Reading.namesResult_iff hr]
    exact Reading.getElem?_mark_results_iff fun _ => rfl
  marks hash r _ := by
    have hkeep : (r.markLogs hash).results.map (·.hasOperations) =
        r.results.map (·.hasOperations) := map_results_alterRecord r hash _ fun _ => by rfl
    rw [hkeep, or_false]

/-! ### Endings -/

variable {logs : List LogEntry} {txs : List Transaction} {results : List ContractResult}
  {i : Nat} {t u : Transaction}

/-- Where no log that names a transaction reports how it has ended, it ends as before: the reports
that it is told are those of its own hash, if it is the last one with the hash, and else none. -/
theorem ending_eq_of_unreported (ht : txs[i]? = some t)
    (hu : (n.readLogs stamp logs txs results).transactions[i]? = some u)
    (hquiet : ∀ l ∈ logs, NamesTransaction txs l.hash i →
      ∀ e ∈ l.log.events, e.identifier ∉ reportIdentifiers) : u.ending = t.ending := by
  obtain ⟨hi, hget⟩ := List.getElem?_eq_some_iff.mp ht
  have hsplit : txs = txs.take i ++ t :: txs.drop (i + 1) := by
    rw [← hget, List.getElem_cons_drop, List.take_append_drop]
  have hlength : (txs.take i).length = i := List.length_take_of_le (Nat.le_of_lt hi)
  have htold := getElem?_toldBy (reportsOf logs) (txs.take i) t (txs.drop (i + 1))
  rw [← hsplit, hlength] at htold
  have hsilent : (if (txs.drop (i + 1)).any (·.hash == t.hash) then [] else reportsOf logs t.hash) =
      [] := by
    split
    · rfl
    · next hlast =>
        -- the hash names this transaction, so all logs with the hash keep quiet
        have hnames : NamesTransaction txs t.hash i := by
          refine ⟨by rw [List.getElem?_map, ht]; rfl, ?_⟩
          rw [← List.map_drop, List.mem_map]
          rintro ⟨later, hlater, hhash⟩
          exact hlast (List.any_eq_true.mpr ⟨later, hlater, beq_iff_eq.mpr hhash⟩)
        rw [List.eq_nil_iff_forall_not_mem]
        intro report hreport
        obtain ⟨hmem, hlisted⟩ := List.mem_filter.mp hreport
        obtain ⟨l, hl, hevent⟩ := List.mem_flatMap.mp hmem
        obtain ⟨hlog, hhash⟩ := List.mem_filter.mp hl
        obtain ⟨e, he, rfl⟩ := List.mem_map.mp hevent
        have hown : NamesTransaction txs l.hash i := by rwa [beq_iff_eq.mp hhash]
        refine hquiet l hlog hown e he ?_
        exact mem_reportIdentifiers_iff.mpr (List.contains_iff_mem.mp hlisted)
  rw [hsilent] at htold
  have hmarked := congrArg (·[i]?) (n.transactions_readLogs stamp logs txs results)
  rw [List.getElem?_map, List.getElem?_map, hu, htold] at hmarked
  have hunmarked : u.unmarked = t.unmarked := Option.some.inj hmarked
  exact (congrArg Transaction.ending hunmarked :)

/-! ### Main result -/

/-- Lists that look alike have elements that look alike in the same places. -/
theorem exists_getElem?_of_map_eq {α β : Type} {v : α → β} {as bs : List α}
    (h : bs.map v = as.map v) {a : α} (ha : as[i]? = some a) :
    ∃ b, bs[i]? = some b ∧ v b = v a := by
  have hat := congrArg (·[i]?) h
  rw [List.getElem?_map, List.getElem?_map, ha] at hat
  exact Option.map_eq_some_iff.mp hat

/-- Reading logs keeps the records of a block in their places. It marks each of them by the logs
that name it, lets a transaction end differently only by a report in one of these, and changes
nothing else. -/
theorem readLogs_marks (n : Network) (stamp : BlockStamp) (logs : List LogEntry)
    (txs : List Transaction) (results : List ContractResult) :
    (n.readLogs stamp logs txs results).MarkedBy logs txs results := by
  have hreads : n.Reads stamp ⟨txs, results, {}⟩ (n.readLogs stamp logs txs results) :=
    reads_readLogs _ logs
  have htxs := hreads.map_unread
  have hresults := hreads.map_unread_results
  constructor
  · simpa using congrArg List.length htxs
  · simpa using congrArg List.length hresults
  · intro i t ht
    obtain ⟨u, hu, hrest⟩ := exists_getElem?_of_map_eq htxs ht
    have hlogs := (n.isFlag_hasLogs stamp ⟨txs, results, {}⟩ i).readLogs logs
    have hoperations :=
      (n.isFlag_hasOperations stamp ⟨txs, results, {}⟩ i).readLogs logs
    change (List.map _ (n.readLogs stamp logs txs results).transactions)[i]? = _ ↔ _
      at hlogs hoperations
    refine ⟨u, hu, ?_, ?_, ?_, hrest⟩
    · simpa [hu, ht] using hlogs
    · simpa [hu, ht, and_assoc, and_comm, and_left_comm] using hoperations
    · intro hending
      by_contra hquiet
      refine hending (ending_eq_of_unreported ht hu fun l hl hnamed e he hreport => ?_)
      exact hquiet ⟨l, ⟨hl, hnamed⟩, e, he, hreport⟩
  · intro i s hs
    obtain ⟨u, hu, hrest⟩ := exists_getElem?_of_map_eq hresults hs
    have hlogs :=
      (n.isFlag_hasLogs_results stamp ⟨txs, results, {}⟩ i).readLogs logs
    have hoperations :=
      (n.isFlag_hasOperations_results stamp ⟨txs, results, {}⟩ i).readLogs logs
    change (List.map _ (n.readLogs stamp logs txs results).results)[i]? = _ ↔ _
      at hlogs hoperations
    refine ⟨u, hu, ?_, ?_, hrest⟩
    · simpa [hu, hs] using hlogs
    · simpa [hu, hs, and_assoc, and_comm, and_left_comm] using hoperations

/-- A hash that a transaction and a result carry names the transaction. -/
example :
    let txs : List Transaction := [{ hash := "aa" }]
    let results : List ContractResult := [{ hash := "aa" }, { hash := "bb" }]
    NamesTransaction txs "aa" 0 ∧ ¬ NamesResult txs results "aa" 0 ∧
      NamesResult txs results "bb" 1 := by
  decide

end Network

end ChainIndex
