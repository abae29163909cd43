import ChainIndex.Call.Transfers
import ChainIndex.Chain.Sharding
import ChainIndex.Json.Reader
import ChainIndex.Token.Record

/-!
# What the data of a record says

The summary of a record's data: the operation, the function that a contract runs, the tokens and
values that move, and who receives them. A relayed transaction is summed up by the transaction it
wraps, one level deep: one that wraps a relayed transaction again is only marked as relayed.
-/

namespace ChainIndex

/-- What the data of a record says. -/
structure CallSummary where
  operation : String := ""
  function : String := ""
  values : List String := []
  tokens : List String := []
  receivers : List String := []
  receiverShards : List UInt32 := []
  isRelayed : Bool := false
deriving Repr, DecidableEq, Inhabited

namespace CallSummary

/-- A summary that knows no more than the operation. -/
def ofOperation (operation : String) : CallSummary :=
  { operation }

/-- A summary that knows no more than that the transaction is relayed. -/
def unread : CallSummary :=
  { isRelayed := true }

/-- The operation of a record that calls nothing the library knows. -/
def plainOperation : String := "transfer"

/-- The operation of a record that deploys a contract. -/
def deployOperation : String := "scDeploy"

end CallSummary

/-- Whether all characters of a text are below 128. -/
def isAsciiText (s : String) : Bool :=
  s.toList.all fun c => c.toNat < 128

/-- The transaction inside a relayed one. -/
structure InnerTransaction where
  receiver : Bytes := []
  sender : Bytes := []
  data : Bytes := []
deriving Repr, DecidableEq

namespace InnerTransaction

/-- Reads a transaction from its JSON form, in which every field has a default. -/
def ofJson? (j : Json) : Option InnerTransaction := do
  let m ← j.members? ["receiver", "sender", "data"]
  let receiver ← m.defaulted "receiver" [] Json.base64Bytes?
  let sender ← m.defaulted "sender" [] Json.base64Bytes?
  let data ← m.defaulted "data" [] Json.base64Bytes?
  some ⟨receiver, sender, data⟩

/-- The transaction whose text is the first argument. -/
def ofText? : List Bytes → Option InnerTransaction
  | [] => none
  | text :: _ => (Json.ofBytes? text).bind ofJson?

/-- The transaction whose receiver, nonce, data and signature are the four arguments; the outer
receiver is its sender. -/
def ofParts? (args : List Bytes) (receiver : Bytes) : Option InnerTransaction :=
  match args with
  | [innerReceiver, _, data, _] => some ⟨innerReceiver, receiver, data⟩
  | _ => none

end InnerTransaction

/-- Splits an identifier that ends in raw nonce bytes: the collection is a ticker, a dash and six
bytes. What has no such form is a collection as a whole. -/
def splitRawIdentifier (arg : Bytes) : String × UInt64 :=
  let ticker := arg.takeWhile (· != 0x2D)
  let rest := (arg.dropWhile (· != 0x2D)).drop 1
  if rest.length ≤ 6 then (Utf8.lenient arg, 0)
  else
    (Utf8.lenient ticker ++ "-" ++ Utf8.lenient (rest.take 6), Bytes.toUInt64 (rest.drop 6))

/-- What a reader of calls has to know about the network. -/
structure CallReader where
  addresses : AddressFormat
  sharding : Sharding

namespace CallReader

/-- A transfer of a fungible token: token, value, and perhaps a function of the receiver. -/
def readTokenTransfer (args : List Bytes) (receiver : Bytes) : CallSummary :=
  let base := CallSummary.ofOperation CallKind.tokenTransferName
  match args with
  | token :: value :: rest =>
    if Bytes.isAscii token then
      { base with
        function := if isContractKey receiver then Transfers.functionAt rest 0 else ""
        tokens := [Utf8.lenient token]
        values := [decimalOfBytes value] }
    else base
  | _ => base

/-- A transfer of one item of a collection. -/
def readNftTransfer (r : CallReader) (args : List Bytes) (sender receiver : Bytes) : CallSummary :=
  let base := CallSummary.ofOperation CallKind.nftTransferName
  match Transfers.ofNftArgs? args sender receiver with
  | none => base
  | some ts =>
    match ts.items with
    | [] => base
    | item :: _ =>
      if Bytes.isAscii item.token then
        { base with
          function :=
            if isContractKey ts.destination && isAsciiText ts.function then ts.function else ""
          tokens := [tokenIdentifier (Utf8.lenient item.token) item.nonce]
          values := [item.value]
          receivers := [r.addresses.encodeOrEmpty ts.destination]
          receiverShards := [r.sharding.shardOf ts.destination] }
      else base

/-- A transfer of any number of items. The receiver is listed once for each of them. -/
def readMultiTransfer (r : CallReader) (args : List Bytes) (sender receiver : Bytes) :
    CallSummary :=
  let base := CallSummary.ofOperation CallKind.multiTransferName
  match Transfers.ofMultiArgs? args sender receiver with
  | none => base
  | some ts =>
    { base with
      function := if isContractKey ts.destination then ts.function else ""
      tokens := ts.items.map fun i => tokenIdentifier (Utf8.lenient i.token) i.nonce
      values := ts.items.map (·.value)
      receivers := ts.items.map fun _ => r.addresses.encodeOrEmpty ts.destination
      receiverShards := ts.items.map fun _ => r.sharding.shardOf ts.destination }

/-- A change of the supply of a fungible token: token and value. -/
def readTokenQuantity (call : Call) : CallSummary :=
  let base := CallSummary.ofOperation call.function
  match call.args with
  | token :: value :: _ =>
    if Bytes.isAscii token then
      { base with tokens := [Utf8.lenient token], values := [decimalOfBytes value] }
    else base
  | _ => base

/-- A change of the supply of an item: token, nonce and value. -/
def readNftQuantity (call : Call) : CallSummary :=
  let base := CallSummary.ofOperation call.function
  match call.args with
  | token :: nonce :: value :: _ =>
    if Bytes.isAscii token then
      { base with
        tokens := [tokenIdentifier (Utf8.lenient token) (Bytes.toUInt64 nonce)]
        values := [decimalOfBytes value] }
    else base
  | _ => base

/-- A hold on somebody's tokens: a collection, perhaps with the raw bytes of a nonce. -/
def readBlocking (call : Call) : CallSummary :=
  let base := CallSummary.ofOperation call.function
  match call.args with
  | [] => base
  | arg :: _ =>
    let (collection, nonce) := splitRawIdentifier arg
    if isAsciiText collection then { base with tokens := [tokenIdentifier collection nonce] }
    else base

/-- The summary of data, given what to make of a relayed transaction. Data for nobody deploys a
contract, whatever it spells. -/
def readWith (r : CallReader) (relayed : Call → CallSummary) (data sender receiver : Bytes) :
    CallSummary :=
  if !data.isEmpty && r.addresses.isNobody receiver then
    .ofOperation CallSummary.deployOperation
  else
    match Call.ofData? data with
    | none => .ofOperation CallSummary.plainOperation
    | some call =>
      match CallKind.ofName call.function with
      | .tokenTransfer => readTokenTransfer call.args receiver
      | .nftTransfer => r.readNftTransfer call.args sender receiver
      | .multiTransfer => r.readMultiTransfer call.args sender receiver
      | .tokenQuantity => readTokenQuantity call
      | .nftQuantity => readNftQuantity call
      | .blocking => readBlocking call
      | .relayed => relayed call
      | .relayedParts => relayed call
      | .builtin => .ofOperation call.function
      | .contract =>
        let base := CallSummary.ofOperation CallSummary.plainOperation
        if isContractKey receiver && isAsciiText call.function then
          { base with function := call.function }
        else base

/-- The summary of data in which a relayed transaction is not opened. -/
def readUnopened (r : CallReader) (data sender receiver : Bytes) : CallSummary :=
  r.readWith (fun _ => .unread) data sender receiver

/-- The transaction that a relayed call wraps. -/
def innerOf? (call : Call) (receiver : Bytes) : Option InnerTransaction :=
  match CallKind.ofName call.function with
  | .relayed => InnerTransaction.ofText? call.args
  | _ => InnerTransaction.ofParts? call.args receiver

/-- The summary of a relayed call: that of the transaction it wraps, whose receiver counts as the
only one unless items are transferred. -/
def readRelayed (r : CallReader) (receiver : Bytes) (call : Call) : CallSummary :=
  match innerOf? call receiver with
  | none => .unread
  | some inner =>
    let summary := r.readUnopened inner.data inner.sender inner.receiver
    if summary.isRelayed then .unread
    else if isNftTransferName summary.operation then { summary with isRelayed := true }
    else
      { summary with
        receivers := [r.addresses.encodeOrEmpty inner.receiver]
        receiverShards := [r.sharding.shardOf inner.receiver]
        isRelayed := true }

/-- What the data of a record between two keys says. -/
def read (r : CallReader) (data sender receiver : Bytes) : CallSummary :=
  r.readWith (r.readRelayed receiver) data sender receiver

end CallReader

end ChainIndex
