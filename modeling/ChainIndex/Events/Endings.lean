import ChainIndex.Events.Family

/-!
# Endings

Events that tell how a record has ended. They settle the status of a transaction of the block at
once. The log of a result tells about the transaction that the result goes back to, which another
block may have; what it tells is kept by the hash of that transaction.
-/

namespace ChainIndex

/-- The identifier of an ordinary end. -/
def writtenIdentifier : String := "writeLog"

/-- The identifier of the end of a transaction with everything it has led to. -/
def completedIdentifier : String := "completedTxEvent"

namespace Transaction

/-- A transaction after an event that tells how it has ended. -/
def endedBy (identifier : String) (t : Transaction) : Transaction :=
  if identifier = completedIdentifier then { t with completedEvent := true }
  else if identifier = writtenIdentifier then { t with status := .success }
  else { t with status := .fail, errorEvent := true }

end Transaction

/-- What an event in the log of a result tells about the first transaction. -/
def Ending.ofIdentifier? (identifier : String) : Option Ending :=
  if identifier = completedIdentifier then some { isComplete := true }
  else if identifier = writtenIdentifier then none
  else some { status := some .fail, hasError := true }

/-- The first transaction of the result with a hash, if that is known. -/
def originOf? (hash : String) (results : List ContractResult) : Option String :=
  ((lastResult? hash results).map (·.originHash)).filter (!·.isEmpty)

/-- Adds a report to what is known about a transaction. -/
def Findings.addEnding (f : Findings) (hash : String) (report : Ending) : Findings :=
  { f with
    endings := f.endings.alter hash fun known =>
      match known with
      | none => report
      | some known => known.merge report }

/-- The events about how records have ended. -/
def endings : EventFamily where
  identifiers := [writtenIdentifier, "signalError", completedIdentifier, "internalVMErrors"]
  interpret e r :=
    match r.alterTransaction? e.hash (·.endedBy e.event.identifier) with
    | some changed => some changed
    | none =>
      match originOf? e.hash r.results, Ending.ofIdentifier? e.event.identifier with
      | some origin, some report => some (r.learn (·.addEnding origin report))
      | _, _ => some r

end ChainIndex
