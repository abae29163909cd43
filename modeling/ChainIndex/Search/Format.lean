import ChainIndex.Events.Format
import ChainIndex.Json.Printer
import ChainIndex.Search.Document

/-!
# Documents in JSON

A script is written as its name with its parameters, if it has any, and a document as its index, its
identifier, what happens to it, and the body that goes with that. The members of bodies are in the
order of their names, so that equal bodies have equal texts.
-/

namespace ChainIndex

namespace Json

mutual

/-- A value with the members of all its objects in the order of their names. -/
def sorted : Json → Json
  | .array vs => .array (sortedElements vs)
  | .object ms => .object (Table.ofList (sortedMembers ms)).entries
  | v => v

/-- Elements, each sorted. -/
def sortedElements : List Json → List Json
  | [] => []
  | v :: vs => sorted v :: sortedElements vs

/-- Members, each with a sorted value. -/
def sortedMembers : List (String × Json) → List (String × Json)
  | [] => []
  | (name, v) :: ms => (name, sorted v) :: sortedMembers ms

end

end Json

open Json

/-- A script with parameters. -/
def Json.scriptWith (name : String) (params : Json) : Json :=
  .object [("script", .string name), ("params", params)]

/-- The parameters that all changes of a stake have. -/
def Json.stakeParams (stake : String) (stakeNum : Binary64) (timestamp : UInt64) :
    List (String × Json) :=
  [("activeStake", .string stake), ("activeStakeNum", .float stakeNum),
    ("timestamp", .uint64 timestamp)]

/-- A replacement as a script. -/
def Replacement.toJson : Replacement → Json
  | keepExisting => .object [("script", .string "keepExisting")]
  | updateFee gasUsed fee feeNum =>
    scriptWith "updateFeeFields" (.object
      [("gasUsed", .uint64 gasUsed), ("fee", .string fee), ("feeNum", .float feeNum)])
  | keepFields fields =>
    scriptWith "replaceKeeping" (.object [("fields", .strings fields)])

/-- A change of an item as a script. -/
def ItemChange.toJson : ItemChange → Json
  | setAttributes attributes =>
    scriptWith "updateAttributes" (.object
      [("attributes", .base64Bytes attributes), ("tags", .strings (attributeTags attributes)),
        ("metadata", .string (attributeLink attributes))])
  | addUris uris => scriptWith "addUris" (.object [("uris", .list .base64Bytes uris)])
  | freeze frozen => scriptWith "freeze" (.object [("frozen", .bool frozen)])
  | pause paused => scriptWith "pause" (.object [("paused", .bool paused)])

/-- A script. -/
def UpdateScript.toJson : UpdateScript → Json
  | replace r => r.toJson
  | replaceIfNewer timestamp =>
    scriptWith "replaceIfNewer" (.object [("timestamp", .uint64 timestamp)])
  | replaceKeepingRoles => .object [("script", .string "replaceKeepingRoles")]
  | mergeEnding ending => scriptWith "mergeStatusInfo" ending.toJson
  | setFee fee feeNum gasUsed =>
    scriptWith "setFee" (.object
      [("fee", .string fee), ("feeNum", .float feeNum), ("gasUsed", .uint64 gasUsed)])
  | subtractRefund fee feeNum gasRefunded =>
    scriptWith "subtractRefund" (.object
      [("fee", .string fee), ("feeNum", .float feeNum), ("gasRefunded", .uint64 gasRefunded)])
  | transferOwnership element owner =>
    scriptWith "transferOwnership" (.object
      [("elem", element.toJson), ("owner", .string owner)])
  | becomeDynamic type timestamp =>
    scriptWith "changeToDynamic" (.object
      [("type", .string type), ("timestamp", .uint64 timestamp)])
  | setRole role address granted =>
    scriptWith "setRole" (.object
      [("role", .string role), ("address", .string address), ("set", .bool granted)])
  | setProperties properties =>
    scriptWith "setProperties" (.object
      [("properties", .object (properties.entries.map fun e => (e.1, .bool e.2)))])
  | changeItem change => change.toJson
  | appendUpgrade deployment => scriptWith "appendUpgrade" deployment.upgradeToJson
  | changeOwner owner => scriptWith "changeOwner" owner.toJson
  | setStake stake stakeNum timestamp =>
    scriptWith "upsertDelegator" (.object (stakeParams stake stakeNum timestamp))
  | appendUnbonding stake stakeNum timestamp unbonding =>
    scriptWith "appendUnDelegate" (.object
      (stakeParams stake stakeNum timestamp ++ [("unDelegate", unbonding.toJson)]))
  | removeWithdrawn stake stakeNum timestamp ids =>
    scriptWith "removeWithdrawn" (.object
      (stakeParams stake stakeNum timestamp ++ [("withdrawIds", .strings ids)]))
  | incrementTag count => scriptWith "incrementTag" (.object [("count", .nat count)])

/-- What happens to a document, with the body that goes with it. -/
def Action.members : Action → List (String × Json)
  | put body => [("action", .string "index"), ("body", body.sorted)]
  | update script body =>
    [("action", .string "update"),
      ("body", .object [("script", script.toJson), ("upsert", body.sorted)])]
  | delete => [("action", .string "delete")]

/-- A document. -/
def Document.toJson (d : Document) : Json :=
  .object ([("index", .string d.index), ("id", .string d.id)] ++ d.action.members)

/-- A document as one line of text. -/
def Document.line (d : Document) : String :=
  d.toJson.render

end ChainIndex
