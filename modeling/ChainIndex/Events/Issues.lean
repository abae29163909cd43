import ChainIndex.Chain.Network
import ChainIndex.Events.Family

/-!
# Issues of tokens

Tokens are issued or registered, change their type, or get a new owner. Each such event makes a
record of the token; it is the writer of documents that tells the kinds apart.
-/

namespace ChainIndex

/-- The identifier of a change of the owner of a token. -/
def transferIdentifier : String := "transferOwnership"

/-- The identifier of a change to a dynamic type. -/
def becomeDynamicIdentifier : String := "changeToDynamic"

namespace Network

variable (n : Network) (stamp : BlockStamp)

/-- The record of a token with an owner. -/
def issuedToken (e : Event) (decimals : UInt64) (owner : String) : TokenRecord :=
  { collection := Utf8.lenient (e.topic 0)
    name := Utf8.lenient (e.topic 1)
    ticker := Utf8.lenient (e.topic 2)
    type := Utf8.lenient (e.topic 3)
    decimals
    issuer := n.addresses.encodeOrEmpty e.address
    currentOwner := owner
    timestamp := stamp.timestamp
    timestampMs := stamp.timestampMs
    owners := [{
      address := owner
      timestamp := stamp.timestamp
      timestampMs := stamp.timestampMs }]
    properties := some {}
    becomesDynamic := e.identifier == becomeDynamicIdentifier }

/-- The record that an event makes of a token: the topics are the collection, the name, the ticker
and the type. A fifth topic names the new owner in a change of ownership; elsewhere it holds the
decimals, if it is the last one. -/
def issueOf? (e : Event) : Option TokenRecord :=
  if e.topics.length < 4 ∨ (e.topic 0).isEmpty then none
  else if e.identifier = transferIdentifier then
    if e.topics.length = 4 then
      some (n.issuedToken stamp e 0 (n.addresses.encodeOrEmpty e.address))
    else
      some { n.issuedToken stamp e 0 (n.addresses.encodeOrEmpty (e.topic 4)) with
        transfersOwnership := true }
  else
    let decimals := if e.topics.length = 5 then Bytes.toUInt64 (e.topic 4) else 0
    some (n.issuedToken stamp e decimals (n.addresses.encodeOrEmpty e.address))

/-- The events about tokens as a whole. -/
def issues : EventFamily where
  identifiers := ["issue", "issueSemiFungible", "issueNonFungible", "registerMetaESDT",
    "changeSFTToMetaESDT", transferIdentifier, "registerAndSetAllRoles", "registerDynamic",
    "registerAndSetAllRolesDynamic", becomeDynamicIdentifier]
  interpret e r :=
    match n.issueOf? stamp e.event with
    | none => some r
    | some t => some (r.learn fun f => { f with issued := f.issued ++ [t] })

end Network

end ChainIndex
