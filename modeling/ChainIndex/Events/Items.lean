import ChainIndex.Chain.Network
import ChainIndex.Events.Family
import ChainIndex.Json.Record

/-!
# Items created and removed

Items of collections are created, burnt, and wiped from somebody's holdings. The shard of the
account that acts notes it; what is wiped is noted by the shard of the holder as well. A creation
tells its item as JSON text, in which the names of fields may begin with a capital or not.
-/

namespace ChainIndex

/-- The identifier of a creation. -/
def createIdentifier : String := "ESDTNFTCreate"

/-- The identifier of a wipe. -/
def wipeIdentifier : String := "ESDTWipe"

/-! ### Items as text -/

/-- An object with other names of fields replaced by the first one of each field. -/
def Json.withNames (others : List (String × String)) : Json → Json
  | .object ms => .object (ms.map fun m => ((others.lookup m.1).getD m.1, m.2))
  | v => v

/-- The other names of the fields of metadata. -/
def metadataNames : List (String × String) :=
  [("nonce", "Nonce"), ("name", "Name"), ("creator", "Creator"), ("royalties", "Royalties"),
    ("hash", "Hash"), ("uris", "URIs"), ("attributes", "Attributes")]

/-- The metadata of an item as its creation tells it. -/
structure CreatedMetadata where
  nonce : UInt64 := 0
  name : Bytes := []
  creator : Bytes := []
  royalties : UInt32 := 0
  hash : Bytes := []
  uris : List Bytes := []
  attributes : Bytes := []
deriving Repr, DecidableEq

namespace CreatedMetadata

/-- Reads metadata, in which every field has a default. -/
def ofJson? (j : Json) : Option CreatedMetadata := do
  let m ← (j.withNames metadataNames).members? (metadataNames.map Prod.snd)
  let nonce ← m.defaulted "Nonce" 0 Json.uint64?
  let name ← m.defaulted "Name" [] Json.base64Bytes?
  let creator ← m.defaulted "Creator" [] Json.base64Bytes?
  let royalties ← m.defaulted "Royalties" 0 Json.uint32?
  let hash ← m.defaulted "Hash" [] Json.base64Bytes?
  let uris ← m.defaulted "URIs" none (Json.nullable? (Json.list? Json.base64Bytes?))
  let attributes ← m.defaulted "Attributes" [] Json.base64Bytes?
  some ⟨nonce, name, creator, royalties, hash, uris.getD [], attributes⟩

/-- Reads the metadata, if any, of an item. -/
def ofItemJson? (j : Json) : Option (Option CreatedMetadata) := do
  let m ← (j.withNames [("tokenMetaData", "TokenMetaData")]).members? ["TokenMetaData"]
  m.defaulted "TokenMetaData" none (Json.nullable? ofJson?)

end CreatedMetadata

/-! ### Items as events -/

namespace Network

variable (n : Network) (stamp : BlockStamp)

/-- The metadata of a creation as a node would report it. -/
def rawMetadata (m : CreatedMetadata) : RawMetadata :=
  { nonce := m.nonce
    name := Utf8.lenient m.name
    creator := n.addresses.encodeOrEmpty m.creator
    royalties := m.royalties
    hash := m.hash
    uris := m.uris
    attributes := m.attributes }

/-- The record of an item that an event is about. -/
def itemOf (e : Event) : TokenRecord :=
  let collection := Utf8.lenient (e.topic 0)
  let nonce := Bytes.toUInt64 (e.topic 1)
  { collection
    identifier := tokenIdentifier collection nonce
    nonce
    timestamp := stamp.timestamp
    timestampMs := stamp.timestampMs }

/-- The item that an event creates, if its text can be read. -/
def createdItemOf? (e : Event) : Option TokenRecord :=
  if e.topics.length < 4 then none
  else
    ((Json.ofBytes? (e.topic 3)).bind CreatedMetadata.ofItemJson?).map fun metadata =>
      { itemOf stamp e with
        metadata := metadata.map fun m => TokenMetadata.ofRaw (n.rawMetadata m) }

/-- What a shard notes of an event by an account of its own. -/
def noteOwn (e : Event) (f : Findings) : Findings :=
  if e.identifier = createIdentifier then
    match n.createdItemOf? stamp e with
    | none => f
    | some t => { f with created := f.created.add t }
  else { f with removed := f.removed.add (itemOf stamp e) }

/-- What a shard notes of an event about an item that somebody of its own has held. -/
def noteHeld (e : Event) (f : Findings) : Findings :=
  if e.identifier = wipeIdentifier ∧ 4 ≤ e.topics.length ∧
      n.sharding.shardOf (e.topic 3) = stamp.shard then
    { f with removed := f.removed.add (itemOf stamp e) }
  else f

/-- The events about items as a whole. -/
def items : EventFamily where
  identifiers := ["ESDTNFTBurn", createIdentifier, wipeIdentifier]
  interpret e r :=
    if e.event.topics.length < 2 then some r
    else if Bytes.toUInt64 (e.event.topic 1) = 0 then none
    else
      some (r.learn fun f =>
        let f := if n.sharding.shardOf e.event.address = stamp.shard then
          n.noteOwn stamp e.event f else f
        n.noteHeld stamp e.event f)

end Network

end ChainIndex
