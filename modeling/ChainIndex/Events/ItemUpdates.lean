import ChainIndex.Chain.Network
import ChainIndex.Events.Family

/-!
# Changes of items

Attributes and links of items change, what somebody holds is frozen, and collections are paused.
Events without a nonce are about tokens that have no items; the family declines them.
-/

namespace ChainIndex

/-- The identifier of a pause. -/
def pauseIdentifier : String := "ESDTPause"

/-- The identifier of the end of a pause. -/
def unpauseIdentifier : String := "ESDTUnPause"

/-- The identifier of new attributes. -/
def setAttributesIdentifier : String := "ESDTNFTUpdateAttributes"

/-- The identifier of new links. -/
def addUrisIdentifier : String := "ESDTNFTAddURI"

/-- The identifier of freezing. -/
def freezeIdentifier : String := "ESDTFreeze"

/-- Notes a change of an item after the earlier ones. -/
def Findings.addItemUpdate (f : Findings) (u : ItemUpdate) : Findings :=
  { f with itemUpdates := f.itemUpdates ++ [u] }

/-- The pause that an event with one topic tells. -/
def pauseOf? (e : Event) : Option ItemUpdate :=
  match e.topics with
  | [collection] =>
    some ⟨Utf8.lenient collection, "", .pause (e.identifier == pauseIdentifier)⟩
  | _ => none

namespace Network

variable (n : Network)

/-- The change of an item that an event by a caller tells. -/
def itemUpdateOf (caller : String) (nonce : UInt64) (e : Event) : ItemUpdate :=
  let identifier := tokenIdentifier (Utf8.lenient (e.topic 0)) nonce
  if e.identifier = setAttributesIdentifier then
    ⟨identifier, caller, .setAttributes (e.topic 3)⟩
  else if e.identifier = addUrisIdentifier then
    ⟨identifier, caller, .addUris (e.topics.drop 3)⟩
  else
    ⟨identifier, n.addresses.encodeOrEmpty (e.topic 3),
      .freeze (e.identifier == freezeIdentifier)⟩

/-- The events about changes of items. -/
def itemUpdates : EventFamily where
  identifiers := [addUrisIdentifier, setAttributesIdentifier, freezeIdentifier, "ESDTUnFreeze",
    pauseIdentifier, unpauseIdentifier]
  interpret e r :=
    if e.event.identifier = pauseIdentifier ∨ e.event.identifier = unpauseIdentifier then
      match pauseOf? e.event with
      | none => some r
      | some u => some (r.learn (·.addItemUpdate u))
    else if e.event.topics.length < 4 then some r
    else
      let caller := n.addresses.encodeOrEmpty e.event.address
      let nonce := Bytes.toUInt64 (e.event.topic 1)
      if caller.isEmpty then some r
      else if nonce = 0 then none
      else some (r.learn (·.addItemUpdate (n.itemUpdateOf caller nonce e.event)))

end Network

end ChainIndex
