import ChainIndex.Json.Record
import ChainIndex.Token.Registry

/-!
# Tokens in JSON

Token records are written to the index and read back from it; all fields that say nothing are left
out, and what is left out reads as nothing.
-/

namespace ChainIndex

open Json

/-! ### Writing -/

/-- The body of metadata. -/
def TokenMetadata.toJson (m : TokenMetadata) : Json :=
  .object <|
    textField "name" m.name
    ++ textField "creator" m.creator
    ++ countField "royalties" m.royalties.toUInt64
    ++ bytesField "hash" m.hash
    ++ listField "uris" .base64Bytes m.uris
    ++ listField "tags" .string m.tags
    ++ bytesField "attributes" m.attributes
    ++ textField "metadata" m.link
    ++ [("nonEmptyURIs", .bool m.hasUris), ("whiteListedStorage", .bool m.isStored)]

/-- The body of an owner. -/
def OwnerRecord.toJson (o : OwnerRecord) : Json :=
  .object <|
    textField "txHash" o.txHash
    ++ [("address", .string o.address), ("timestamp", .uint64 o.timestamp)]
    ++ countField "timestampMs" o.timestampMs

/-- The names of the properties of a token, in order. -/
def TokenProperties.names : List String :=
  ["canMint", "canBurn", "canUpgrade", "canTransferNftCreateRole", "canAddSpecialRoles",
    "canPause", "canFreeze", "canWipe", "canChangeOwner", "canCreateMultiShard"]

/-- The body of properties. -/
def TokenProperties.toJson (p : TokenProperties) : Json :=
  .object (names.zip
    ([p.canMint, p.canBurn, p.canUpgrade, p.canTransferCreateRole, p.canAddSpecialRoles,
      p.canPause, p.canFreeze, p.canWipe, p.canChangeOwner, p.canCreateMultiShard].map .bool))

/-- The body of a token. -/
def TokenRecord.toJson (t : TokenRecord) : Json :=
  .object <|
    textField "name" t.name
    ++ textField "ticker" t.ticker
    ++ textField "identifier" t.identifier
    ++ textField "token" t.collection
    ++ textField "issuer" t.issuer
    ++ textField "currentOwner" t.currentOwner
    ++ textField "type" t.type
    ++ countField "nonce" t.nonce
    ++ countField "numDecimals" t.decimals
    ++ countField "timestamp" t.timestamp
    ++ countField "timestampMs" t.timestampMs
    ++ (match t.metadata with
      | none => []
      | some m => [("data", m.toJson)])
    ++ listField "ownersHistory" OwnerRecord.toJson t.owners
    ++ (match t.properties with
      | none => []
      | some p => [("properties", p.toJson)])

/-! ### Reading -/

/-- Reads metadata. -/
def TokenMetadata.ofJson? (j : Json) : Option TokenMetadata := do
  let m ← j.members? ["name", "creator", "royalties", "hash", "uris", "tags", "attributes",
    "metadata", "nonEmptyURIs", "whiteListedStorage"]
  let name ← m.defaulted "name" "" string?
  let creator ← m.defaulted "creator" "" string?
  let royalties ← m.defaulted "royalties" 0 uint32?
  let hash ← m.defaulted "hash" [] base64Bytes?
  let uris ← m.defaulted "uris" [] (list? base64Bytes?)
  let tags ← m.defaulted "tags" [] (list? string?)
  let attributes ← m.defaulted "attributes" [] base64Bytes?
  let link ← m.defaulted "metadata" "" string?
  let hasUris ← m.defaulted "nonEmptyURIs" false bool?
  let isStored ← m.defaulted "whiteListedStorage" false bool?
  some ⟨name, creator, royalties, hash, uris, tags, attributes, link, hasUris, isStored⟩

/-- Reads an owner. -/
def OwnerRecord.ofJson? (j : Json) : Option OwnerRecord := do
  let m ← j.members? ["txHash", "address", "timestamp", "timestampMs"]
  let txHash ← m.defaulted "txHash" "" string?
  let address ← m.required "address" string?
  let timestamp ← m.required "timestamp" uint64?
  let timestampMs ← m.defaulted "timestampMs" 0 uint64?
  some ⟨txHash, address, timestamp, timestampMs⟩

/-- Reads properties. -/
def TokenProperties.ofJson? (j : Json) : Option TokenProperties := do
  let m ← j.members? names
  let canMint ← m.defaulted "canMint" false bool?
  let canBurn ← m.defaulted "canBurn" false bool?
  let canUpgrade ← m.defaulted "canUpgrade" false bool?
  let canTransferCreateRole ← m.defaulted "canTransferNftCreateRole" false bool?
  let canAddSpecialRoles ← m.defaulted "canAddSpecialRoles" false bool?
  let canPause ← m.defaulted "canPause" false bool?
  let canFreeze ← m.defaulted "canFreeze" false bool?
  let canWipe ← m.defaulted "canWipe" false bool?
  let canChangeOwner ← m.defaulted "canChangeOwner" false bool?
  let canCreateMultiShard ← m.defaulted "canCreateMultiShard" false bool?
  some ⟨canMint, canBurn, canUpgrade, canTransferCreateRole, canAddSpecialRoles, canPause,
    canFreeze, canWipe, canChangeOwner, canCreateMultiShard⟩

/-- Reads a token. -/
def TokenRecord.ofJson? (j : Json) : Option TokenRecord := do
  let m ← j.members? ["name", "ticker", "identifier", "token", "issuer", "currentOwner", "type",
    "nonce", "numDecimals", "timestamp", "timestampMs", "data", "ownersHistory", "properties"]
  let name ← m.defaulted "name" "" string?
  let ticker ← m.defaulted "ticker" "" string?
  let identifier ← m.defaulted "identifier" "" string?
  let collection ← m.defaulted "token" "" string?
  let issuer ← m.defaulted "issuer" "" string?
  let currentOwner ← m.defaulted "currentOwner" "" string?
  let type ← m.defaulted "type" "" string?
  let nonce ← m.defaulted "nonce" 0 uint64?
  let decimals ← m.defaulted "numDecimals" 0 uint64?
  let timestamp ← m.defaulted "timestamp" 0 uint64?
  let timestampMs ← m.defaulted "timestampMs" 0 uint64?
  let metadata ← m.defaulted "data" none (nullable? TokenMetadata.ofJson?)
  let owners ← m.defaulted "ownersHistory" [] (list? OwnerRecord.ofJson?)
  let properties ← m.defaulted "properties" none (nullable? TokenProperties.ofJson?)
  some ⟨name, ticker, identifier, collection, issuer, currentOwner, type, nonce, decimals,
    timestamp, timestampMs, metadata, owners, properties, false, false⟩

/-- Reads the type and the owner that the store has of a token. -/
def StoredToken.sourceOfJson? (j : Json) : Option (String × String) := do
  let m ← j.members? ["type", "currentOwner"]
  let type ← m.defaulted "type" "" string?
  let currentOwner ← m.defaulted "currentOwner" "" string?
  some (type, currentOwner)

/-- Reads what the store answers about one identifier. -/
def StoredToken.ofJson? (j : Json) : Option StoredToken := do
  let m ← j.members? ["found", "_id", "_source"]
  let found ← m.defaulted "found" false bool?
  let id ← m.required "_id" string?
  let source ← m.defaulted "_source" ("", "") sourceOfJson?
  some ⟨found, id, source.1, source.2⟩

/-- Reads the answers of the store to one request. -/
def StoredToken.listOfJson? (j : Json) : Option (List StoredToken) := do
  let m ← j.members? ["docs"]
  m.defaulted "docs" [] (list? StoredToken.ofJson?)

end ChainIndex
