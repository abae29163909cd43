import ChainIndex.Account
import ChainIndex.Events.Findings
import ChainIndex.Json.Record

/-!
# Documents

A document is one instruction for the search engine: to put a body under an identifier of an index,
to change what may be stored there, or to delete it. `Action.run` says what is stored afterwards.
Changes that concern a body as a whole have a meaning here, `Replacement.apply`; all others are
scripts that the search engine knows by name, so what they do is a parameter.
-/

namespace ChainIndex

/-- The members of an object, none of any other value. -/
def Json.membersOf : Json → List (String × Json)
  | .object ms => ms
  | _ => []

/-- How a document takes the place of one that may be stored already. -/
inductive Replacement where
  /-- What is stored stays as it is. -/
  | keepExisting
  /-- Of what is stored only the cost changes. -/
  | updateFee (gasUsed : UInt64) (fee : String) (feeNum : Binary64)
  /-- Everything is replaced but the stored values of some fields. -/
  | keepFields (fields : List String)
deriving Repr, DecidableEq, Inhabited

namespace Replacement

/-- A new body that keeps the stored values of some fields. -/
def keeping (fields : List String) (new stored : List (String × Json)) : List (String × Json) :=
  (new.map fun m =>
    if fields.contains m.1 then (m.1, (Json.lookup m.1 stored).getD m.2) else m)
  ++ stored.filter fun m => fields.contains m.1 && (Json.lookup m.1 new).isNone

/-- What a stored body becomes when a new one comes. -/
def apply (r : Replacement) (new stored : Json) : Json :=
  match r with
  | keepExisting => stored
  | updateFee gasUsed fee feeNum =>
    .object (Dict.insertEntry "gasUsed" (.uint64 gasUsed) (Dict.insertEntry "fee" (.string fee)
      (Dict.insertEntry "feeNum" (.float feeNum) stored.membersOf)))
  | keepFields fields => .object (keeping fields new.membersOf stored.membersOf)

end Replacement

/-- A change of what may be stored. If nothing is stored, the body that goes with the script is. -/
inductive UpdateScript where
  /-- The body takes the place of what is stored. -/
  | replace (r : Replacement)
  /-- The body takes the place of what is stored unless that is newer. -/
  | replaceIfNewer (timestamp : UInt64)
  /-- The body takes the place of what is stored but for the roles. -/
  | replaceKeepingRoles
  /-- A transaction learns how it has ended. -/
  | mergeEnding (ending : Ending)
  /-- A transaction that is stored gets another fee. -/
  | setFee (fee : String) (feeNum : Binary64) (gasUsed : UInt64)
  /-- A transaction that is stored gets gas back. -/
  | subtractRefund (fee : String) (feeNum : Binary64) (gasRefunded : UInt64)
  /-- A token gets a new owner, who is appended to the earlier ones. -/
  | transferOwnership (element : OwnerRecord) (owner : String)
  /-- A token becomes dynamic. -/
  | becomeDynamic (type : String) (timestamp : UInt64)
  /-- An address joins those who have a role, or leaves them. -/
  | setRole (role address : String) (granted : Bool)
  /-- A token gets new properties. -/
  | setProperties (properties : Table Bool)
  /-- An item changes. -/
  | changeItem (change : ItemChange)
  /-- A contract that is stored gets one more upgrade. -/
  | appendUpgrade (deployment : Deployment)
  /-- A contract that is stored gets a new owner. -/
  | changeOwner (owner : OwnerRecord)
  /-- A delegation gets a new stake. -/
  | setStake (stake : String) (stakeNum : Binary64) (timestamp : UInt64)
  /-- A delegation gets a new stake, part of which is on its way back. -/
  | appendUnbonding (stake : String) (stakeNum : Binary64) (timestamp : UInt64)
    (unbonding : Unbonding)
  /-- A delegation gets a new stake, and stakes on their way back are paid. -/
  | removeWithdrawn (stake : String) (stakeNum : Binary64) (timestamp : UInt64)
    (ids : List String)
  /-- A tag is used more often. -/
  | incrementTag (count : Nat)
deriving Inhabited

/-- What happens to a document. -/
inductive Action where
  /-- A body takes the place of whatever is stored. -/
  | put (body : Json)
  /-- A script changes what is stored; if nothing is, the body is. -/
  | update (script : UpdateScript) (body : Json)
  /-- Nothing is left. -/
  | delete
deriving Inhabited

/-- What is stored after an action, given what the scripts that the engine knows by name make of
the body that goes with them and the one that is stored. -/
def Action.run (engine : UpdateScript → Json → Json → Json) :
    Action → Option Json → Option Json
  | .put body, _ => some body
  | .update _ body, none => some body
  | .update (.replace r) body, some stored => some (r.apply body stored)
  | .update script body, some stored => some (engine script body stored)
  | .delete, _ => none

/-- An instruction for the search engine. -/
structure Document where
  index : String
  id : String
  action : Action
deriving Inhabited

namespace Document

/-- An instruction to store a body. -/
def put (index id : String) (body : Json) : Document :=
  ⟨index, id, .put body⟩

/-- An instruction to run a script, with a body to store if nothing is. -/
def update (index id : String) (script : UpdateScript) (body : Json) : Document :=
  ⟨index, id, .update script body⟩

/-- An instruction to run a script, with an empty body to store if nothing is. -/
def script (index id : String) (script : UpdateScript) : Document :=
  ⟨index, id, .update script (.object [])⟩

/-- An instruction to delete. -/
def delete (index id : String) : Document :=
  ⟨index, id, .delete⟩

end Document

end ChainIndex
