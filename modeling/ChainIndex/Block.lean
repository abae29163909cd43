import ChainIndex.Bytes
import ChainIndex.Dict

/-!
# Blocks

What a node reports of one block: the header, the miniblocks, the pool of records that the
miniblocks list by hash, the logs, and the accounts whose state has changed. Pool entries are
keyed by the hexadecimal hash of the record.
-/

namespace ChainIndex

/-- How the transactions of a miniblock come to be executed. -/
inductive ProcessingType where
  | normal
  | scheduled
  | processed
deriving Repr, DecidableEq, Inhabited

/-- How far a miniblock is built. -/
inductive ConstructionState where
  | proposed
  | final
  | partialExecuted
deriving Repr, DecidableEq, Inhabited

/-- What the header says of the miniblock at the same position. The miniblock has executed the
transactions from the first index to the last, both included. -/
structure MiniBlockHeader where
  processing : ProcessingType := .normal
  construction : ConstructionState := .final
  firstExecuted : Int32 := 0
  lastExecuted : Int32 := 2147483647
deriving Repr, DecidableEq, Inhabited

/-- The header of a block, with its time in seconds and in milliseconds. -/
structure Header where
  shard : UInt32 := 0
  round : UInt64 := 0
  epoch : UInt32 := 0
  timestamp : UInt64 := 0
  timestampMs : UInt64 := 0
  miniBlocks : List MiniBlockHeader := []
deriving Repr, DecidableEq, Inhabited

/-- What a miniblock lists. -/
inductive MiniBlockType where
  | transactions
  | states
  | peers
  | results
  | invalid
  | receipts
  | rewards
deriving Repr, DecidableEq, Inhabited

/-- A list of hashes of records that go from one shard to another. -/
structure MiniBlock where
  type : MiniBlockType
  senderShard : UInt32
  receiverShard : UInt32
  hashes : List Bytes := []
deriving Repr, DecidableEq, Inhabited

/-- What a record has cost. -/
structure FeeInfo where
  gasUsed : UInt64 := 0
  fee : String := ""
  initialPaidFee : String := ""
  gasRefunded : UInt64 := 0
deriving Repr, DecidableEq, Inhabited

/-- A transaction as its sender signed it. -/
structure TxPayload where
  nonce : UInt64 := 0
  value : String := ""
  receiver : Bytes := []
  receiverUserName : Bytes := []
  sender : Bytes := []
  senderUserName : Bytes := []
  gasPrice : UInt64 := 0
  gasLimit : UInt64 := 0
  data : Bytes := []
  signature : Bytes := []
  version : UInt32 := 0
  relayer : Bytes := []
deriving Repr, DecidableEq, Inhabited

/-- A transaction in the pool. -/
structure TxEntry where
  transaction : TxPayload := {}
  feeInfo : Option FeeInfo := none
  executionOrder : UInt32 := 0
deriving Repr, DecidableEq, Inhabited

/-- A result of a contract, which acts like a transaction that nobody signed. -/
structure ResultPayload where
  nonce : UInt64 := 0
  value : String := ""
  receiver : Bytes := []
  sender : Bytes := []
  relayer : Bytes := []
  relayedValue : Option String := none
  code : Bytes := []
  data : Bytes := []
  previousHash : Bytes := []
  originHash : Bytes := []
  gasLimit : UInt64 := 0
  gasPrice : UInt64 := 0
  callType : Int32 := 0
  codeMetadata : Bytes := []
  returnMessage : Bytes := []
  originSender : Bytes := []
deriving Repr, DecidableEq, Inhabited

/-- A result in the pool. -/
structure ResultEntry where
  result : ResultPayload := {}
  feeInfo : Option FeeInfo := none
  executionOrder : UInt32 := 0
deriving Repr, DecidableEq, Inhabited

/-- A reward for a validator. -/
structure RewardPayload where
  round : UInt64 := 0
  epoch : UInt32 := 0
  value : String := ""
  receiver : Bytes := []
deriving Repr, DecidableEq, Inhabited

/-- A reward in the pool. -/
structure RewardEntry where
  reward : RewardPayload := {}
  executionOrder : UInt32 := 0
deriving Repr, DecidableEq, Inhabited

/-- A receipt in the pool. -/
structure ReceiptEntry where
  value : String := ""
  sender : Bytes := []
  data : Bytes := []
  txHash : Bytes := []
deriving Repr, DecidableEq, Inhabited

/-- Something that happened while a record was executed. -/
structure Event where
  address : Bytes := []
  identifier : String := ""
  topics : List Bytes := []
  data : Bytes := []
  additionalData : List Bytes := []
deriving Repr, DecidableEq, Inhabited

/-- A topic by its position; a missing topic is empty. -/
def Event.topic (e : Event) (i : Nat) : Bytes :=
  e.topics.getD i []

/-- The events of one record. -/
structure Log where
  address : Bytes := []
  events : List Event := []
deriving Repr, DecidableEq, Inhabited

/-- A log with the hexadecimal hash of the record that it belongs to. -/
structure LogEntry where
  hash : String := ""
  log : Log := {}
deriving Repr, DecidableEq, Inhabited

/-- The records that miniblocks list, and the logs. -/
structure Pool where
  transactions : Dict TxEntry := .empty
  results : Dict ResultEntry := .empty
  rewards : Dict RewardEntry := .empty
  receipts : Dict ReceiptEntry := .empty
  invalid : Dict TxEntry := .empty
  logs : List LogEntry := []
deriving Inhabited

/-- The data of an item of a collection as it was created. -/
structure RawMetadata where
  nonce : UInt64 := 0
  name : String := ""
  creator : String := ""
  royalties : UInt32 := 0
  hash : Bytes := []
  uris : List Bytes := []
  attributes : Bytes := []
deriving Repr, DecidableEq, Inhabited

/-- More about the tokens of an account. -/
structure HoldingDetails where
  isCreated : Bool := false
deriving Repr, DecidableEq, Inhabited

/-- The tokens of one kind that an account holds. -/
structure Holding where
  nonce : UInt64 := 0
  identifier : String := ""
  balance : String := ""
  properties : String := ""
  metadata : Option RawMetadata := none
  details : Option HoldingDetails := none
deriving Repr, DecidableEq, Inhabited

/-- More about an account. -/
structure AccountDetails where
  isSender : Bool := false
  balanceChanged : Bool := false
  currentOwner : String := ""
  userName : String := ""
  developerRewards : String := ""
  codeHash : Bytes := []
  rootHash : Bytes := []
  codeMetadata : Bytes := []
deriving Repr, DecidableEq, Inhabited

/-- An account whose state has changed. -/
structure AlteredAccount where
  address : String := ""
  nonce : UInt64 := 0
  balance : String := ""
  tokens : List Holding := []
  details : Option AccountDetails := none
deriving Repr, DecidableEq, Inhabited

/-- A block as a node reports it. -/
structure Block where
  shard : UInt32 := 0
  header : Option Header := none
  miniBlocks : List MiniBlock := []
  pool : Option Pool := none
  accounts : Dict AlteredAccount := .empty
deriving Inhabited

namespace Block

/-- The time of a block in seconds, zero without a header. -/
def timestamp (b : Block) : UInt64 :=
  match b.header with
  | some h => h.timestamp
  | none => 0

/-- The time of a block in milliseconds, zero without a header. -/
def timestampMs (b : Block) : UInt64 :=
  match b.header with
  | some h => h.timestampMs
  | none => 0

end Block

/-- The shard that has made a block, and the time of the block in seconds and in milliseconds. Every
record of the block is stamped so. -/
structure BlockStamp where
  shard : UInt32 := 0
  timestamp : UInt64 := 0
  timestampMs : UInt64 := 0
deriving Repr, DecidableEq, Inhabited

/-- The stamp of the records of a block. -/
def Block.stamp (b : Block) : BlockStamp :=
  ⟨b.shard, b.timestamp, b.timestampMs⟩

/-- A pool entry, by the type of the miniblock that lists it. -/
inductive PoolRecord where
  | normal (entry : TxEntry)
  | reward (entry : RewardEntry)
  | invalid (entry : TxEntry)
  | result (entry : ResultEntry)
  | receipt (entry : ReceiptEntry)
deriving Repr

/-- The record that a miniblock of a type lists by a hash. -/
def Pool.record? (p : Pool) (type : MiniBlockType) (hash : String) : Option PoolRecord :=
  match type with
  | .transactions => (p.transactions.get? hash).map .normal
  | .rewards => (p.rewards.get? hash).map .reward
  | .invalid => (p.invalid.get? hash).map .invalid
  | .results => (p.results.get? hash).map .result
  | .receipts => (p.receipts.get? hash).map .receipt
  | .states | .peers => none

end ChainIndex
