import ChainIndex.Chain.Network
import ChainIndex.Events.Family
import ChainIndex.Text.Letter

/-!
# Changes of roles and properties

Roles on tokens are granted and revoked, handed over, or given to everybody, and owners change what
they may do with a token. A role is spelled with letters only; one that is not makes the whole
event void.
-/

namespace ChainIndex

/-- The truth values that topics spell. -/
def trueTopics : List Bytes :=
  ["1", "t", "T", "TRUE", "true", "True"].map Utf8.encode

/-- The truth value of a topic; what spells none is false. -/
def topicFlag (topic : Bytes) : Bool :=
  trueTopics.contains topic

/-- The role of those who create items. -/
def createRole : String := "ESDTRoleNFTCreate"

/-- The role by which everybody may burn a token. -/
def burnForAllRole : String := "ESDTRoleBurnForAll"

/-- The identifier of a change of properties. -/
def propertiesIdentifier : String := "upgradeProperties"

/-- The identifier of the hand-over of the role of creating items. -/
def handOverIdentifier : String := "ESDTNFTCreateRoleTransfer"

/-- The identifiers of grants. -/
def grantIdentifiers : List String :=
  ["ESDTSetRole", "ESDTSetBurnRoleForAll"]

/-- The properties that topics spell in pairs of name and truth value; a name that is left over is
not read. -/
def propertyPairs : List Bytes → List (String × Bool)
  | name :: value :: rest => (Utf8.lenient name, topicFlag value) :: propertyPairs rest
  | _ => []

/-- The new properties that an event tells. -/
def propertyChangeOf (e : Event) : PropertyChange :=
  ⟨Utf8.lenient (e.topic 0), .ofList (propertyPairs (e.topics.drop 2))⟩

/-- Whether a role is spelled with letters only. -/
def isRoleName (role : String) : Bool :=
  role.toList.all Text.isLetter

namespace Network

variable (n : Network)

/-- The roles that an event changes, each with its change, in order. -/
def roleChangesOf (e : Event) : List (String × RoleChange) :=
  let token := Utf8.lenient (e.topic 0)
  let address := n.addresses.encodeOrEmpty e.address
  if e.identifier = handOverIdentifier then
    [(createRole, ⟨token, address, topicFlag (e.topic 3)⟩)]
  else
    let roles := (e.topics.drop 3).map Utf8.lenient
    if roles.all isRoleName then
      roles.map fun role =>
        (role, ⟨token, if role = burnForAllRole then "" else address,
          grantIdentifiers.contains e.identifier⟩)
    else []

/-- The events about roles and properties. -/
def roleChanges : EventFamily where
  identifiers := ["ESDTSetRole", "ESDTUnSetRole", handOverIdentifier, propertiesIdentifier,
    "ESDTSetBurnRoleForAll", "ESDTUnSetBurnRoleForAll"]
  interpret e r :=
    if e.event.topics.length < 4 then some r
    else if e.event.identifier = propertiesIdentifier then
      some (r.learn fun f =>
        { f with roleBook := f.roleBook.addProperties (propertyChangeOf e.event) })
    else
      some (r.learn fun f =>
        { f with
          roleBook := (n.roleChangesOf e.event).foldl (fun b c => b.addRole c.1 c.2) f.roleBook })

end Network

end ChainIndex
