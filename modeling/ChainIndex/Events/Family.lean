import ChainIndex.Events.Findings

/-!
# Families of events

An event is offered to the families that list its identifier, one after another; the first that
does not decline it interprets it, and no other family sees it. Interpreting changes a `Reading`:
the records of the block with what the logs have told so far.

A log names a record by its hash. Of several transactions with the hash the last one is meant, and
a result only if there is no such transaction.
-/

namespace ChainIndex

/-- An event with the hash of the record that the log belongs to, and the address of the log. -/
structure LoggedEvent where
  hash : String
  contract : Bytes
  event : Event
deriving Repr, DecidableEq, Inhabited

/-- The records of a block and what its logs have told so far. -/
structure Reading where
  transactions : List Transaction := []
  results : List ContractResult := []
  findings : Findings := {}
deriving Inhabited

/-- Changes the last element for which a condition holds, if there is one. -/
def alterLast? {α : Type} (p : α → Bool) (f : α → α) : List α → Option (List α)
  | [] => none
  | a :: rest =>
    match alterLast? p f rest with
    | some changed => some (a :: changed)
    | none => if p a then some (f a :: rest) else none

/-- The last transaction with a hash. -/
def lastTransaction? (hash : String) (txs : List Transaction) : Option Transaction :=
  (txs.filter (·.hash == hash)).getLast?

/-- The last result with a hash. -/
def lastResult? (hash : String) (results : List ContractResult) : Option ContractResult :=
  (results.filter (·.hash == hash)).getLast?

namespace Reading

/-- Changes the transaction that a hash names, if it names one. -/
def alterTransaction? (r : Reading) (hash : String) (f : Transaction → Transaction) :
    Option Reading :=
  (alterLast? (·.hash == hash) f r.transactions).map fun txs => { r with transactions := txs }

/-- Changes the result with a hash, if there is one. -/
def alterResult? (r : Reading) (hash : String) (f : ContractResult → ContractResult) :
    Option Reading :=
  (alterLast? (·.hash == hash) f r.results).map fun results => { r with results := results }

/-- Changes the record that a hash names. -/
def alterRecord (r : Reading) (hash : String) (f : Transaction → Transaction)
    (g : ContractResult → ContractResult) : Reading :=
  match r.alterTransaction? hash f with
  | some changed => changed
  | none => (r.alterResult? hash g).getD r

/-- Notes that the record with a hash has operations. -/
def markOperations (r : Reading) (hash : String) : Reading :=
  r.alterRecord hash (fun t => { t with hasOperations := true })
    fun t => { t with hasOperations := true }

/-- Notes that the record with a hash has logs. -/
def markLogs (r : Reading) (hash : String) : Reading :=
  r.alterRecord hash (fun t => { t with hasLogs := true }) fun t => { t with hasLogs := true }

/-- Changes what the logs have told so far. -/
def learn (r : Reading) (f : Findings → Findings) : Reading :=
  { r with findings := f r.findings }

end Reading

/-- A family of events: the identifiers that it lists, and what an event of the family changes.
No answer means that the family declines the event. -/
structure EventFamily where
  identifiers : List String
  interpret : LoggedEvent → Reading → Option Reading

namespace EventFamily

/-- What a family makes of an event; an event that it does not list is declined. -/
def offer (f : EventFamily) (e : LoggedEvent) (r : Reading) : Option Reading :=
  if f.identifiers.contains e.event.identifier then f.interpret e r else none

/-- Offers an event to families in order. -/
def dispatch (families : List EventFamily) (e : LoggedEvent) (r : Reading) : Reading :=
  (families.findSome? fun f => f.offer e r).getD r

/-- Interprets the events of a log in order. -/
def readLog (families : List EventFamily) (r : Reading) (log : LogEntry) : Reading :=
  let read := log.log.events.foldl
    (fun r event =>
      (dispatch families ⟨log.hash, log.log.address, event⟩ r).markOperations log.hash) r
  read.markLogs log.hash

/-- Interprets logs in order. -/
def readLogs (families : List EventFamily) (r : Reading) (logs : List LogEntry) : Reading :=
  logs.foldl (readLog families) r

end EventFamily

end ChainIndex
