import ChainIndex.Account.Format
import ChainIndex.Search.Document

/-!
# Documents of accounts

An account is stored under its address. A holding is stored under the address, the collection and
the nonce in hexadecimal, so an item that somebody holds is found under the address and the
identifier of the item; a holding that has become empty is deleted.
-/

namespace ChainIndex

/-- What a holding is stored under. -/
def AccountRecord.holdingId (a : AccountRecord) : String :=
  a.address ++ "-" ++ a.collection ++ "-" ++ nonceText a.tokenNonce

/-- What a snapshot is stored under. -/
def BalanceSnapshot.id (s : BalanceSnapshot) : String :=
  let time := Digits.ofNat s.timestamp.toNat
  if s.collection.isEmpty then s.address ++ "-" ++ time
  else s.address ++ "-" ++ s.collection ++ "-" ++ nonceText s.tokenNonce ++ "-" ++ time

/-- The documents of accounts. -/
def accountDocuments (index : String) (accounts : Table AccountRecord) : List Document :=
  accounts.values.map fun a => .put index a.address a.toJson

/-- The document of a holding. -/
def AccountRecord.holdingDocument (index : String) (a : AccountRecord) : Document :=
  if isSomeBalance a.balance then .put index a.holdingId a.toJson
  else .delete index a.holdingId

/-- The documents of holdings. -/
def holdingDocuments (index : String) (holdings : Table AccountRecord) : List Document :=
  holdings.values.map (·.holdingDocument index)

/-- The documents of snapshots. -/
def snapshotDocuments (index : String) (snapshots : Table BalanceSnapshot) : List Document :=
  snapshots.values.map fun s => .put index s.id s.toJson

/-- Whether a change concerns what holders have; a pause is about a whole collection. -/
def ItemChange.isOfHolder : ItemChange → Bool
  | pause _ => false
  | _ => true

/-- The documents about changes of items that are held. -/
def heldItemDocuments (index : String) (updates : List ItemUpdate) : List Document :=
  (updates.filter (·.change.isOfHolder)).map fun u =>
    .script index (u.address ++ "-" ++ u.identifier) (.changeItem u.change)

end ChainIndex
