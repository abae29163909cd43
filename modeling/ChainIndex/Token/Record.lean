import ChainIndex.Text.Hex
import ChainIndex.Token.Metadata

/-!
# Token records

What the index knows of a token: of a collection as it was issued, or of an item of a collection. A
collection is named by itself; an item, which has a nonce other than zero, is named by its
collection, a dash and the nonce in hexadecimal, as many bytes as it needs.
-/

namespace ChainIndex

/-- A nonce in hexadecimal, at least one byte of it. -/
def nonceText (nonce : UInt64) : String :=
  if nonce = 0 then "00" else Hex.encode (Bytes.ofNat nonce.toNat)

/-- The identifier of the item of a collection, or of the collection itself for nonce zero. -/
def tokenIdentifier (collection : String) (nonce : UInt64) : String :=
  if nonce = 0 then collection
  else collection ++ "-" ++ Hex.encode (Bytes.ofNat nonce.toNat)

namespace TokenType

/-- The type of tokens without items. -/
def fungible : String := "FungibleESDT"

/-- The type of tokens whose items are counted like money. -/
def semiFungibleAmount : String := "MetaESDT"

/-- The types of collections each of whose items exists once. -/
def nonFungible : List String :=
  ["NonFungibleESDT", "NonFungibleESDTv2", "DynamicNonFungibleESDT"]

/-- Whether each item of a collection of a type exists once. -/
def isNonFungible (type : String) : Bool :=
  nonFungible.contains type

end TokenType

/-- Who came to own something, when, and by which transaction if that is known. -/
structure OwnerRecord where
  txHash : String := ""
  address : String := ""
  timestamp : UInt64 := 0
  timestampMs : UInt64 := 0
deriving Repr, DecidableEq, Inhabited

/-- What the owner of a token may do. -/
structure TokenProperties where
  canMint : Bool := false
  canBurn : Bool := false
  canUpgrade : Bool := false
  canTransferCreateRole : Bool := false
  canAddSpecialRoles : Bool := false
  canPause : Bool := false
  canFreeze : Bool := false
  canWipe : Bool := false
  canChangeOwner : Bool := false
  canCreateMultiShard : Bool := false
deriving Repr, DecidableEq, Inhabited

/-- A token. The last two fields tell how the record changes one that is stored already. -/
structure TokenRecord where
  name : String := ""
  ticker : String := ""
  identifier : String := ""
  collection : String := ""
  issuer : String := ""
  currentOwner : String := ""
  type : String := ""
  nonce : UInt64 := 0
  decimals : UInt64 := 0
  timestamp : UInt64 := 0
  timestampMs : UInt64 := 0
  metadata : Option TokenMetadata := none
  owners : List OwnerRecord := []
  properties : Option TokenProperties := none
  transfersOwnership : Bool := false
  becomesDynamic : Bool := false
deriving Repr, DecidableEq, Inhabited

/-- What a token is known by: its identifier, or its collection if it has none. -/
def TokenRecord.key (t : TokenRecord) : String :=
  if t.identifier.isEmpty then t.collection else t.identifier

end ChainIndex
