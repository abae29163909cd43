import ChainIndex.Account
import ChainIndex.Account.Entry
import ChainIndex.Chain.Network
import ChainIndex.Token.Metadata

/-!
# Accounts from what has changed

An account becomes a record if its address and its balance can be read, and a holding if the
address can. A holding whose balance cannot be read counts as empty.
-/

namespace ChainIndex

/-- What it takes to show accounts: how addresses are written and how amounts are scaled. -/
structure AccountReader where
  addresses : AddressFormat
  scale : AmountScale

/-- The reader of the accounts of a network. -/
def Network.accountReader (n : Network) : AccountReader :=
  ⟨n.addresses, n.scale⟩

/-- What an account holds of one token. -/
structure HoldingState where
  balance : Int := 0
  properties : String := ""
  metadata : Option TokenMetadata := none
deriving Repr, DecidableEq, Inhabited

namespace HoldingEntry

/-- The last holding of the account with the collection and the nonce of the entry. -/
def holding? (e : HoldingEntry) : Option Holding :=
  (e.account.tokens.filter fun h =>
    h.identifier == e.collection && h.nonce == e.nonce).getLast?

/-- What the account holds; nothing if the collection has no name or the balance is no integer. -/
def state (e : HoldingEntry) : HoldingState :=
  if e.collection.isEmpty then {}
  else
    match e.holding? with
    | none => {}
    | some h =>
      match readAmount h.balance with
      | .error _ => {}
      | .ok balance => ⟨balance, h.properties, h.metadata.map TokenMetadata.ofRaw⟩

end HoldingEntry

/-- Whether properties in hexadecimal freeze a holding: the last bit of their first byte. -/
def isFrozenBy (properties : String) : Bool :=
  match Hex.decodeText properties with
  | .ok (b :: _) => b % 2 == 1
  | _ => false

/-- The type of a token that is told by its nonce alone. -/
def typeOfNonce (nonce : UInt64) : String :=
  if nonce = 0 then TokenType.fungible else ""

namespace AccountReader

variable (r : AccountReader) (stamp : BlockStamp)

/-- A balance of the currency as floating point, zero if it has no such form. -/
def balanceNum (amount : Int) : Binary64 :=
  match r.scale.showBalance amount with
  | .ok x => x
  | .error _ => .zero

/-- A token value as floating point, zero if it has no such form. -/
def tokenValueNum (amount : Int) : Binary64 :=
  match r.scale.showTokenValue amount with
  | .ok x => x
  | .error _ => .zero

/-- A record with the rewards of a developer, if they can be read. -/
def withRewards (rewards : String) (a : AccountRecord) : AccountRecord :=
  if rewards.isEmpty then a
  else
    match readAmount rewards with
    | .error _ => a
    | .ok amount =>
      { a with developerRewards := rewards, developerRewardsNum := r.balanceNum amount }

/-- A record with what else is known of the account. -/
def withDetails (details : Option AccountDetails) (a : AccountRecord) : AccountRecord :=
  match details with
  | none => a
  | some d =>
    r.withRewards d.developerRewards
      { a with
        userName := d.userName
        currentOwner := d.currentOwner
        rootHash := d.rootHash
        codeHash := d.codeHash
        codeMetadata := d.codeMetadata }

/-- The record of an account. -/
def accountRecord? (e : AccountEntry) : Option AccountRecord :=
  match r.addresses.decode e.account.address, readAmount e.account.balance with
  | .ok key, .ok balance =>
    some (r.withDetails e.account.details
      { address := e.account.address
        nonce := e.account.nonce
        balance := Digits.ofInt balance
        balanceNum := r.balanceNum balance
        isSender := e.isSender
        isContract := isContractKey key
        timestamp := stamp.timestamp
        timestampMs := stamp.timestampMs
        shard := stamp.shard })
  | _, _ => none

/-- The records of accounts by address. -/
def accountTable (entries : List AccountEntry) : Table AccountRecord :=
  .ofList ((entries.filterMap (r.accountRecord? stamp)).map fun a => (a.address, a))

/-- The record of a holding. -/
def holdingRecord? (e : HoldingEntry) : Option AccountRecord :=
  match r.addresses.decode e.account.address with
  | .error _ => none
  | .ok key =>
    let held := e.state
    some
      { address := e.account.address
        collection := e.collection
        identifier := tokenIdentifier e.collection e.nonce
        tokenNonce := e.nonce
        balance := Digits.ofInt held.balance
        balanceNum := r.tokenValueNum held.balance
        properties := held.properties
        isFrozen := isFrozenBy held.properties
        isSender := e.isSender
        isContract := isContractKey key
        metadata := held.metadata
        timestamp := stamp.timestamp
        timestampMs := stamp.timestampMs
        shard := stamp.shard
        type := typeOfNonce e.nonce }

/-- The records of holdings by what a holding is collected by. -/
def holdingTable (entries : List HoldingEntry) : Table AccountRecord :=
  .ofList ((entries.filterMap (r.holdingRecord? stamp)).map fun a =>
    (holdingKey a.address a.collection a.tokenNonce, a))

/-- The tokens of which somebody holds something. -/
def heldTokens (entries : List HoldingEntry) : Registry :=
  ((entries.filterMap (r.holdingRecord? stamp)).filter fun a => isSomeBalance a.balance).foldl
    (fun tokens a => tokens.add { collection := a.collection, identifier := a.identifier }) .empty

/-- The tags of an item that has just been created. -/
def createdTags (e : HoldingEntry) : List String :=
  match r.addresses.decode e.account.address with
  | .error _ => []
  | .ok _ =>
    if e.isCreated then
      match e.state.metadata with
      | some m => m.tags
      | none => []
    else []

/-- The counts of the tags of created items. -/
def tagCounts (entries : List HoldingEntry) : TagCounts :=
  entries.foldl (fun counts e => counts.addItem (r.createdTags e)) .empty

end AccountReader

end ChainIndex
