import ChainIndex.Call
import ChainIndex.Chain.Network
import ChainIndex.Record

/-!
# The outcome of a transaction

A transaction that has led to results gets its outcome from them. Results tell success by a mark in
their data; without one the whole gas limit counts as used, and a code of the virtual machine among
the results means failure, unless a transfer is still on its way to another shard.
-/

namespace ChainIndex

/-- The marks of success in the data of a result. -/
def okMarks : List String := ["@6f6b", "@ok"]

/-- The codes by which the virtual machine reports failure. -/
def errorCodes : List String :=
  ["function not found", "wrong signature", "contract not found", "user error", "out of gas",
    "account collision", "out of funds", "call stack overflow", "contract invalid",
    "execution failed", "upgrade failed", "simulate failed"]

/-- The mark of a code in the data of a result: an at sign and the code in hexadecimal. -/
def errorMark (code : String) : Bytes :=
  atSign :: Utf8.encodeChars (Hex.encodeChars (Utf8.encode code))

/-- What stands in front of the data of a relayed transaction. -/
def relayedMark : Bytes := Utf8.encode "relayedTx"

/-- The parts of data between at signs, as text. -/
def dataParts (data : Bytes) : List String :=
  (data.splitOn atSign).map Utf8.lenient

/-- Whether data calls a transfer of items with at least `count` parts, the function included. -/
def isNftTransferData (count : Nat) (data : Bytes) : Bool :=
  let parts := dataParts data
  decide (count ≤ parts.length) && isNftTransferName (parts.headD "")

namespace ContractResult

/-- Whether the data has a mark of success. -/
def isOk (r : ContractResult) : Bool :=
  okMarks.any fun mark => Bytes.hasPart (Utf8.encode mark) r.data

/-- Whether the result reports failure, in its data or as its message. -/
def isFailure (r : ContractResult) : Bool :=
  errorCodes.any fun code => r.returnMessage == code || Bytes.hasPart (errorMark code) r.data

/-- Whether the result is a transfer of items on its way to another shard. -/
def isPendingTransfer (r : ContractResult) : Bool :=
  isNftTransferData 2 r.data && r.senderShard != r.receiverShard

/-- Whether the result gives items back because their transfer has failed: its last part is the
code for an error of the user. -/
def isFailedTransfer (r : ContractResult) : Bool :=
  isNftTransferData 4 r.data
    && (dataParts r.data).getLast? == some (Hex.encode (Utf8.encode "user error"))

end ContractResult

namespace Transaction

/-- Whether the data wraps another transaction. -/
def wraps (t : Transaction) : Bool :=
  relayedMark.isPrefixOf t.data

/-- The transaction with the whole gas limit used and paid for. -/
def chargedFully (n : Network) (t : Transaction) : Transaction :=
  let fee := n.fees.fee t.gasPrice t.gasLimit t.data
  { t with
    gasUsed := t.gasLimit
    fee := Digits.ofNat fee
    feeNum := (n.scale.showTokenValue (Int.ofNat fee)).toOption.getD .zero }

/-- The transaction with the outcome that its results tell. -/
def withOutcome (n : Network) (t : Transaction) : Transaction :=
  if t.results.isEmpty then t
  else
    let t := { t with hasResults := true }
    if t.wraps || t.status == .invalid then t
    else if t.results.any ContractResult.isOk then t
    else
      let t := t.chargedFully n
      if t.results.any ContractResult.isPendingTransfer then t
      else if t.results.any ContractResult.isFailure then { t with status := .fail }
      else t

end Transaction

end ChainIndex
