import ChainIndex.Block.Format
import ChainIndex.Chain.Network
import ChainIndex.Digest.Sha256
import ChainIndex.Json.Printer
import ChainIndex.Record
import ChainIndex.Text.Utf8

/-!
# Records from pool entries

A pool entry becomes a record once it is known which miniblock lists it. Amounts that cannot be
shown as floating point are shown as zero, and keys that cannot be written as the empty text.
-/

namespace ChainIndex

/-- The hexadecimal hash of a miniblock: the digest of its JSON text. -/
def MiniBlock.hash (b : MiniBlock) : String :=
  Hex.encode (Sha256.digest (Utf8.encodeChars b.toJson.renderChars))

/-- Where a record was found: the hash of the miniblock and the shards it goes between. -/
structure Placement where
  miniBlockHash : String
  senderShard : UInt32
  receiverShard : UInt32
deriving Repr, DecidableEq

namespace Placement

/-- The place of the records that a miniblock lists. -/
def ofMiniBlock (b : MiniBlock) : Placement :=
  ⟨b.hash, b.senderShard, b.receiverShard⟩

/-- The place, inside a shard, of a record that no miniblock lists. -/
def unlisted (shard : UInt32) : Placement :=
  ⟨"", shard, shard⟩

end Placement

/-- What a record has cost if the pool does not say. -/
def FeeInfo.nothing : FeeInfo :=
  { fee := "0", initialPaidFee := "0" }

/-- Whether all values are short enough for the index. -/
def areShortValues (values : List String) : Bool :=
  values.all fun v => v.utf8ByteSize ≤ maxAmountBytes

namespace Network

variable (n : Network)

/-- Token values as floating point, none of them if one has no such form. -/
def tokenValuesNum (values : List String) : List Binary64 :=
  match n.scale.readTokenValues values with
  | .ok xs => xs
  | .error _ => []

/-- The address of a key that may be missing. -/
def addressIfAny (key : Bytes) : String :=
  if key.isEmpty then "" else n.addresses.encodeOrEmpty key

/-- The record of a transaction. -/
def transactionOf (h : Header) (hash : String) (place : Placement) (status : TxStatus)
    (entry : TxEntry) : Transaction :=
  let tx := entry.transaction
  let cost := entry.feeInfo.getD .nothing
  let said := n.read tx.data tx.sender tx.receiver
  { hash
    miniBlockHash := place.miniBlockHash
    nonce := tx.nonce
    round := h.round
    value := tx.value
    valueNum := n.scale.tokenValueOrZero tx.value
    receiver := n.addresses.encodeOrEmpty tx.receiver
    sender := n.addresses.encodeOrEmpty tx.sender
    receiverShard := place.receiverShard
    senderShard := place.senderShard
    gasPrice := tx.gasPrice
    gasLimit := tx.gasLimit
    gasUsed := cost.gasUsed
    fee := cost.fee
    feeNum := n.scale.tokenValueOrZero cost.fee
    initialPaidFee := cost.initialPaidFee
    data := tx.data
    signature := Hex.encode tx.signature
    timestamp := h.timestamp
    timestampMs := h.timestampMs
    status
    senderUserName := tx.senderUserName
    receiverUserName := tx.receiverUserName
    isContractCall := isContractKey tx.receiver
    tokens := said.tokens.map Text.cutField
    tokenValues := if areShortValues said.values then said.values else []
    tokenValuesNum := n.tokenValuesNum said.values
    receivers := said.receivers
    receiverShards := said.receiverShards
    operation := said.operation
    function := Text.cutField said.function
    isRelayed := said.isRelayed
    version := tx.version
    receiverKey := tx.receiver
    executionOrder := entry.executionOrder }

/-- The operation of a reward. -/
def rewardOperation : String := "reward"

/-- The record of a reward, which the metachain sends. -/
def rewardOf (h : Header) (hash : String) (place : Placement) (status : TxStatus)
    (entry : RewardEntry) : Transaction :=
  let reward := entry.reward
  { hash
    miniBlockHash := place.miniBlockHash
    round := reward.round
    value := reward.value
    valueNum := n.scale.tokenValueOrZero reward.value
    receiver := n.addresses.encodeOrEmpty reward.receiver
    sender := Digits.ofNat metachainShard.toNat
    receiverShard := place.receiverShard
    senderShard := place.senderShard
    fee := "0"
    timestamp := h.timestamp
    timestampMs := h.timestampMs
    status
    operation := rewardOperation
    receiverKey := reward.receiver
    executionOrder := entry.executionOrder }

/-- The record of a receipt. -/
def receiptOf (h : Header) (hash : String) (entry : ReceiptEntry) : Receipt :=
  { hash
    value := entry.value
    sender := n.addresses.encodeOrEmpty entry.sender
    data := Utf8.lenient entry.data
    txHash := Hex.encode entry.txHash
    timestamp := h.timestamp }

/-- The record of a result. -/
def resultOf (h : Header) (hash : String) (place : Placement) (entry : ResultEntry) :
    ContractResult :=
  let result := entry.result
  let cost := entry.feeInfo.getD .nothing
  let said := n.read result.data result.sender result.receiver
  { hash
    miniBlockHash := place.miniBlockHash
    nonce := result.nonce
    gasLimit := result.gasLimit
    gasPrice := result.gasPrice
    value := result.value
    valueNum := n.scale.tokenValueOrZero result.value
    sender := n.addresses.encodeOrEmpty result.sender
    receiver := n.addresses.encodeOrEmpty result.receiver
    senderShard := place.senderShard
    receiverShard := place.receiverShard
    relayer := n.addressIfAny result.relayer
    relayedValue := result.relayedValue.getD ""
    code := Utf8.lenient result.code
    data := result.data
    previousHash := Hex.encode result.previousHash
    originHash := Hex.encode result.originHash
    callType := Digits.ofInt result.callType.toInt
    codeMetadata := result.codeMetadata
    returnMessage := Utf8.lenient result.returnMessage
    timestamp := h.timestamp
    timestampMs := h.timestampMs
    tokens := said.tokens
    tokenValues := if areShortValues said.values then said.values else []
    tokenValuesNum := n.tokenValuesNum said.values
    receivers := said.receivers
    receiverShards := said.receiverShards
    operation := said.operation
    function := Text.cutField said.function
    isRelayed := said.isRelayed
    originSender := n.addressIfAny result.originSender
    senderKey := result.sender
    initialFee := cost.fee
    initialGasUsed := cost.gasUsed
    gasRefunded := cost.gasRefunded
    executionOrder := entry.executionOrder }

end Network

end ChainIndex
