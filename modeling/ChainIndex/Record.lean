import ChainIndex.Bytes
import ChainIndex.Number.Binary64

/-!
# Records

What the index shows of a block's transactions, results and receipts. A transaction also carries,
unseen, the results that it has led to.
-/

namespace ChainIndex

/-- What has become of a transaction. -/
inductive TxStatus where
  | success
  | pending
  | fail
  | invalid
deriving Repr, DecidableEq

instance : Inhabited TxStatus := ⟨.success⟩

namespace TxStatus

/-- The name of a status. -/
def name : TxStatus → String
  | .success => "success"
  | .pending => "pending"
  | .fail => "fail"
  | .invalid => "invalid"

/-- The status with a name. -/
def ofName? : String → Option TxStatus
  | "success" => some .success
  | "pending" => some .pending
  | "fail" => some .fail
  | "invalid" => some .invalid
  | _ => none

end TxStatus

/-- A result of a contract. What it has cost the first transaction is known to the library but is
not part of the document. -/
structure ContractResult where
  hash : String := ""
  miniBlockHash : String := ""
  nonce : UInt64 := 0
  gasLimit : UInt64 := 0
  gasPrice : UInt64 := 0
  value : String := ""
  valueNum : Binary64 := .zero
  sender : String := ""
  receiver : String := ""
  senderShard : UInt32 := 0
  receiverShard : UInt32 := 0
  relayer : String := ""
  relayedValue : String := ""
  code : String := ""
  data : Bytes := []
  previousHash : String := ""
  originHash : String := ""
  callType : String := ""
  codeMetadata : Bytes := []
  returnMessage : String := ""
  timestamp : UInt64 := 0
  timestampMs : UInt64 := 0
  hasOperations : Bool := false
  hasLogs : Bool := false
  type : String := ""
  status : Option TxStatus := none
  tokens : List String := []
  tokenValues : List String := []
  tokenValuesNum : List Binary64 := []
  receivers : List String := []
  receiverShards : List UInt32 := []
  operation : String := ""
  function : String := ""
  isRelayed : Bool := false
  canBeIgnored : Bool := false
  originSender : String := ""
  senderKey : Bytes := []
  initialFee : String := ""
  initialGasUsed : UInt64 := 0
  gasRefunded : UInt64 := 0
  executionOrder : UInt32 := 0
deriving Repr, DecidableEq, Inhabited

/-- A transaction. -/
structure Transaction where
  hash : String := ""
  miniBlockHash : String := ""
  nonce : UInt64 := 0
  round : UInt64 := 0
  value : String := ""
  valueNum : Binary64 := .zero
  receiver : String := ""
  sender : String := ""
  receiverShard : UInt32 := 0
  senderShard : UInt32 := 0
  gasPrice : UInt64 := 0
  gasLimit : UInt64 := 0
  gasUsed : UInt64 := 0
  fee : String := ""
  feeNum : Binary64 := .zero
  initialPaidFee : String := ""
  data : Bytes := []
  signature : String := ""
  timestamp : UInt64 := 0
  timestampMs : UInt64 := 0
  status : TxStatus := .success
  searchOrder : UInt32 := 0
  senderUserName : Bytes := []
  receiverUserName : Bytes := []
  hasResults : Bool := false
  isContractCall : Bool := false
  hasOperations : Bool := false
  hasLogs : Bool := false
  tokens : List String := []
  tokenValues : List String := []
  tokenValuesNum : List Binary64 := []
  receivers : List String := []
  receiverShards : List UInt32 := []
  type : String := ""
  operation : String := ""
  function : String := ""
  isRelayed : Bool := false
  version : UInt32 := 0
  errorEvent : Bool := false
  completedEvent : Bool := false
  results : List ContractResult := []
  receiverKey : Bytes := []
  executionOrder : UInt32 := 0
deriving Repr, DecidableEq, Inhabited

/-- A receipt. -/
structure Receipt where
  hash : String := ""
  value : String := ""
  sender : String := ""
  data : String := ""
  txHash : String := ""
  timestamp : UInt64 := 0
deriving Repr, DecidableEq, Inhabited

/-- What the results in a block say of the cost of a transaction that another block has. -/
structure FeeCorrection where
  fee : String := ""
  feeNum : Binary64 := .zero
  gasUsed : UInt64 := 0
  receiver : String := ""
  gasRefunded : UInt64 := 0
deriving Repr, DecidableEq, Inhabited

end ChainIndex
