import ChainIndex.Number.Binary64
import ChainIndex.Number.Digits
import ChainIndex.Token.Registry

/-!
# Accounts

What the index shows of an account, and of what an account holds of one token. Both are records of
one type: the record of a holding names the token. Beside each goes a snapshot of the balance for
the history.
-/

namespace ChainIndex

/-- An account, or what an account holds of one token. -/
structure AccountRecord where
  address : String := ""
  nonce : UInt64 := 0
  balance : String := ""
  balanceNum : Binary64 := .zero
  collection : String := ""
  identifier : String := ""
  tokenNonce : UInt64 := 0
  properties : String := ""
  isFrozen : Bool := false
  userName : String := ""
  developerRewards : String := ""
  developerRewardsNum : Binary64 := .zero
  metadata : Option TokenMetadata := none
  timestamp : UInt64 := 0
  timestampMs : UInt64 := 0
  type : String := ""
  currentOwner : String := ""
  shard : UInt32 := 0
  rootHash : Bytes := []
  codeHash : Bytes := []
  codeMetadata : Bytes := []
  isSender : Bool := false
  isContract : Bool := false
deriving Repr, DecidableEq, Inhabited

/-- The balance of an account, or of what it holds of one token, after a block. -/
structure BalanceSnapshot where
  address : String := ""
  timestamp : UInt64 := 0
  timestampMs : UInt64 := 0
  balance : String := ""
  collection : String := ""
  identifier : String := ""
  tokenNonce : UInt64 := 0
  isSender : Bool := false
  isContract : Bool := false
  shard : UInt32 := 0
deriving Repr, DecidableEq, Inhabited

/-- Whether a balance says that something is there: an empty text and a plain zero do not. -/
def isSomeBalance (balance : String) : Bool :=
  !balance.isEmpty && balance != "0"

/-- What a holding is collected by: address, collection and nonce. -/
def holdingKey (address collection : String) (nonce : UInt64) : String :=
  address ++ "-" ++ collection ++ "-" ++ Digits.ofNat nonce.toNat

/-- The snapshot of a record. -/
def AccountRecord.snapshot (stamp : BlockStamp) (a : AccountRecord) : BalanceSnapshot :=
  { address := a.address
    timestamp := stamp.timestamp
    timestampMs := stamp.timestampMs
    balance := a.balance
    collection := a.collection
    identifier := tokenIdentifier a.collection a.tokenNonce
    tokenNonce := a.tokenNonce
    isSender := a.isSender
    isContract := a.isContract
    shard := stamp.shard }

/-- The snapshots of records, by what a holding is collected by. -/
def snapshotsOf (stamp : BlockStamp) (accounts : Table AccountRecord) : Table BalanceSnapshot :=
  .ofList (accounts.values.map fun a =>
    (holdingKey a.address a.collection a.tokenNonce, a.snapshot stamp))

/-- A holding with the type and the owner that a registry has for its collection. An empty type
says nothing. -/
def AccountRecord.typedBy (r : Registry) (a : AccountRecord) : AccountRecord :=
  match r.ofCollection? a.collection with
  | none => a
  | some t =>
    { a with
      type := if t.type.isEmpty then a.type else t.type
      currentOwner := t.currentOwner }

end ChainIndex
