import ChainIndex.Proofs.Call.Summary
import ChainIndex.Proofs.Text.Ascii

/-!
# Transfers are read as they are written

A transfer of items is written as a call: token, nonce and amount of each item, and perhaps a
function to run at the destination. The owner sends the call to itself and names the destination;
then it is delivered without that argument. Both forms are read as what was written, for one item
and for any number of them (`CallReader.readsTransfers`).

Reading the items is a loop over arguments, three for each item, that is told how many there are. It
is an induction over the items with any arguments behind them, so that the function to run is still
there when the loop is done. The number of items is an argument too, and a counter must be able to
show it.
-/

namespace ChainIndex

@[simp] theorem Bytes.toUInt64_ofNat (n : UInt64) : Bytes.toUInt64 (Bytes.ofNat n.toNat) = n := by
  have hlt := n.toNat_lt
  rw [Bytes.toUInt64, Bytes.toNat_ofNat, Nat.min_eq_left (by omega), UInt64.ofNat_toNat]

/-! ### Written transfers -/

/-- An amount of one item on its way: its token, named in ASCII, and its nonce. -/
structure Parcel where
  token : String
  nonce : UInt64
  amount : Nat
  isAscii : isAsciiText token = true

namespace Parcel

/-- The arguments for an item: token, nonce and amount, the numbers in as few bytes as they
need. -/
def args (p : Parcel) : List Bytes :=
  [Utf8.encode p.token, Bytes.ofNat p.nonce.toNat, Bytes.ofNat p.amount]

/-- The identifier of the item. -/
def identifier (p : Parcel) : String :=
  tokenIdentifier p.token p.nonce

/-- The transfer that the arguments for an item describe. -/
def toTransfer (p : Parcel) : TokenTransfer :=
  ⟨Utf8.encode p.token, p.nonce, Digits.ofNat p.amount⟩

end Parcel

namespace Transfers

/-- The argument for a function, if one is to run. -/
def functionArgs : Option String → List Bytes
  | none => []
  | some function => [Utf8.encode function]

/-- The arguments that say how many items there are, which ones, and what is to run. -/
def countedArgs (items : List Parcel) (function : Option String) : List Bytes :=
  Bytes.ofNat items.length :: (items.flatMap Parcel.args ++ functionArgs function)

/-- The call by which an owner sends one item. -/
def sentItem (destination : Bytes) (item : Parcel) (function : Option String) : Call :=
  ⟨CallKind.nftTransferName, item.args ++ destination :: functionArgs function⟩

/-- The call by which one item is delivered. -/
def deliveredItem (item : Parcel) (function : Option String) : Call :=
  ⟨CallKind.nftTransferName, item.args ++ functionArgs function⟩

/-- The call by which an owner sends any number of items. -/
def sentItems (destination : Bytes) (items : List Parcel) (function : Option String) : Call :=
  ⟨CallKind.multiTransferName, destination :: countedArgs items function⟩

/-- The call by which any number of items is delivered. -/
def deliveredItems (items : List Parcel) (function : Option String) : Call :=
  ⟨CallKind.multiTransferName, countedArgs items function⟩

end Transfers

namespace CallReader

/-- The summary of items that go to a destination. A function runs at a contract only. -/
def transferSummary (r : CallReader) (operation : String) (destination : Bytes)
    (items : List Parcel) (function : Option String) : CallSummary :=
  { operation
    function := if isContractKey destination then function.getD "" else ""
    tokens := items.map Parcel.identifier
    values := items.map fun item => Digits.ofNat item.amount
    receivers := items.map fun _ => r.addresses.encodeOrEmpty destination
    receiverShards := items.map fun _ => r.sharding.shardOf destination }

/-- A transfer is read as a summary both where its owner sends it to itself and where it is
delivered. -/
structure ReadsTransfer (r : CallReader) (destination : Bytes) (sent delivered : Call)
    (said : CallSummary) : Prop where
  atOwner : ∀ owner, r.addresses.isNobody owner = false → r.read sent.toData owner owner = said
  atDestination : r.addresses.isNobody destination = false → ∀ sender, sender ≠ destination →
    r.read delivered.toData sender destination = said

end CallReader

/-! ### Reading the arguments -/

namespace Transfers

/-- The argument behind others is the function. -/
theorem functionAt_append (args : List Bytes) (function : Option String) :
    functionAt (args ++ functionArgs function) args.length = function.getD "" := by
  rw [functionAt, List.getElem?_append_right (Nat.le_refl _), Nat.sub_self]
  cases function with
  | none => rfl
  | some function => exact Utf8.lenient_encode function

theorem functionAt_zero (function : Option String) :
    functionAt (functionArgs function) 0 = function.getD "" :=
  functionAt_append [] function

theorem length_flatMap_args (items : List Parcel) :
    (items.flatMap Parcel.args).length = 3 * items.length := by
  induction items with
  | nil => rfl
  | cons item rest ih =>
      rw [List.flatMap_cons, List.length_append, ih, List.length_cons]
      simp only [Parcel.args, List.length_cons, List.length_nil]
      omega

theorem ofArgs_parcel (item : Parcel) :
    TokenTransfer.ofArgs (Utf8.encode item.token) (Bytes.ofNat item.nonce.toNat)
      (Bytes.ofNat item.amount) = item.toTransfer := by
  rw [TokenTransfer.ofArgs, Bytes.toUInt64_ofNat, decimalOfBytes, Bytes.toNat_ofNat,
    Parcel.toTransfer]

/-- Three arguments are read for each item. -/
theorem listOfArgs_flatMap_args (items : List Parcel) :
    TokenTransfer.listOfArgs (items.flatMap Parcel.args) = items.map Parcel.toTransfer := by
  induction items with
  | nil => rfl
  | cons item rest ih =>
      rw [List.flatMap_cons, List.map_cons, ← ih, ← ofArgs_parcel]
      rfl

/-- As many items are read as were counted, if a counter can count them. -/
theorem ofCountedArgs?_countedArgs {items : List Parcel} (hitems : items ≠ [])
    (hcount : items.length < UInt64.size) (destination : Bytes) (function : Option String) :
    ofCountedArgs? destination (countedArgs items function) =
      some ⟨destination, function.getD "", items.map Parcel.toTransfer⟩ := by
  have hlength := length_flatMap_args items
  have hread : (Bytes.toUInt64 (Bytes.ofNat items.length)).toNat = items.length := by
    have hword : (UInt64.ofNat items.length).toNat = items.length :=
      UInt64.toNat_ofNat_of_lt' hcount
    rw [← hword, Bytes.toUInt64_ofNat, hword]
  have hfunction := functionAt_append (items.flatMap Parcel.args) function
  have htake : (items.flatMap Parcel.args ++ functionArgs function).take (3 * items.length) =
      items.flatMap Parcel.args := List.take_left' hlength
  rw [hlength] at hfunction
  have henough : ¬ (items.length = 0 ∨
      (items.flatMap Parcel.args ++ functionArgs function).length < 3 * items.length) := by
    rw [List.length_append, hlength, List.length_eq_zero_iff]
    rintro (hnil | hshort)
    · exact hitems hnil
    · omega
  rw [countedArgs, ofCountedArgs?, hread, if_neg henough, hfunction, htake, listOfArgs_flatMap_args]

theorem ofMultiArgs?_sent {items : List Parcel} (hitems : items ≠ [])
    (hcount : items.length < UInt64.size) (destination owner : Bytes) (function : Option String) :
    ofMultiArgs? (sentItems destination items function).args owner owner =
      some ⟨destination, function.getD "", items.map Parcel.toTransfer⟩ := by
  unfold ofMultiArgs?
  rw [if_pos rfl]
  exact ofCountedArgs?_countedArgs hitems hcount destination function

theorem ofMultiArgs?_delivered {items : List Parcel} (hitems : items ≠ [])
    (hcount : items.length < UInt64.size) {sender destination : Bytes}
    (hsender : sender ≠ destination) (function : Option String) :
    ofMultiArgs? (deliveredItems items function).args sender destination =
      some ⟨destination, function.getD "", items.map Parcel.toTransfer⟩ := by
  unfold ofMultiArgs?
  rw [if_neg hsender]
  exact ofCountedArgs?_countedArgs hitems hcount destination function

theorem ofNftArgs?_sent (destination owner : Bytes) (item : Parcel) (function : Option String) :
    ofNftArgs? (sentItem destination item function).args owner owner =
      some ⟨destination, function.getD "", [item.toTransfer]⟩ := by
  rw [← ofArgs_parcel, ← functionAt_zero]
  exact if_pos rfl

theorem ofNftArgs?_delivered {sender destination : Bytes} (hsender : sender ≠ destination)
    (item : Parcel) (function : Option String) :
    ofNftArgs? (deliveredItem item function).args sender destination =
      some ⟨destination, function.getD "", [item.toTransfer]⟩ := by
  rw [← ofArgs_parcel, ← functionAt_zero]
  exact if_neg hsender

end Transfers

/-! ### Main result -/

namespace CallReader

variable {r : CallReader} {call : Call} {args : List Bytes} {sender receiver destination : Bytes}
  {function : Option String}

theorem read_toData_of_nftTransfer (hname : call.function = CallKind.nftTransferName)
    (hreceiver : r.addresses.isNobody receiver = false) :
    r.read call.toData sender receiver = r.readNftTransfer call.args sender receiver := by
  have hcalls : r.Calls call.toData receiver call :=
    .of_toData hname (by decide) hreceiver
  exact readWith_of_nftTransfer hcalls (by rw [hname]; rfl)

theorem read_toData_of_multiTransfer (hname : call.function = CallKind.multiTransferName)
    (hreceiver : r.addresses.isNobody receiver = false) :
    r.read call.toData sender receiver = r.readMultiTransfer call.args sender receiver := by
  have hcalls : r.Calls call.toData receiver call :=
    .of_toData hname (by decide) hreceiver
  exact readWith_of_multiTransfer hcalls (by rw [hname]; rfl)

theorem readMultiTransfer_of_args {items : List Parcel}
    (h : Transfers.ofMultiArgs? args sender receiver =
      some ⟨destination, function.getD "", items.map Parcel.toTransfer⟩) :
    r.readMultiTransfer args sender receiver =
      r.transferSummary CallKind.multiTransferName destination items function := by
  have hidentifier : (fun item : TokenTransfer =>
      tokenIdentifier (Utf8.lenient item.token) item.nonce) ∘ Parcel.toTransfer =
      Parcel.identifier := by
    funext item
    rw [Function.comp_apply, Parcel.toTransfer, Utf8.lenient_encode, Parcel.identifier]
  rw [readMultiTransfer, h]
  dsimp only
  rw [List.map_map, List.map_map, List.map_map, List.map_map, hidentifier]
  rfl

/-- A function that is named in ASCII is shown. -/
theorem isAsciiText_getD (hfunction : ∀ name ∈ function, isAsciiText name = true) :
    isAsciiText (function.getD "") = true := by
  cases function with
  | none => rfl
  | some name => exact hfunction name rfl

theorem readNftTransfer_of_args {item : Parcel}
    (hfunction : ∀ name ∈ function, isAsciiText name = true)
    (h : Transfers.ofNftArgs? args sender receiver =
      some ⟨destination, function.getD "", [item.toTransfer]⟩) :
    r.readNftTransfer args sender receiver =
      r.transferSummary CallKind.nftTransferName destination [item] function := by
  have htoken : Bytes.isAscii item.toTransfer.token = true := by
    rw [Parcel.toTransfer, Bytes.isAscii_encode, item.isAscii]
  rw [readNftTransfer, h]
  dsimp only
  rw [if_pos htoken, isAsciiText_getD hfunction, Bool.and_true, Parcel.toTransfer,
    Utf8.lenient_encode]
  rfl

/-- Transfers are read as they are written, of one item and of any number of items that a counter
can count. -/
theorem readsTransfers (r : CallReader) (destination : Bytes) {function : Option String}
    (hfunction : ∀ name ∈ function, isAsciiText name = true) :
    (∀ item : Parcel,
      r.ReadsTransfer destination (Transfers.sentItem destination item function)
        (Transfers.deliveredItem item function)
        (r.transferSummary CallKind.nftTransferName destination [item] function)) ∧
    ∀ items : List Parcel, items ≠ [] → items.length < UInt64.size →
      r.ReadsTransfer destination (Transfers.sentItems destination items function)
        (Transfers.deliveredItems items function)
        (r.transferSummary CallKind.multiTransferName destination items function) := by
  refine ⟨fun item => ⟨?_, ?_⟩, fun items hitems hcount => ⟨?_, ?_⟩⟩
  · intro owner howner
    rw [read_toData_of_nftTransfer rfl howner]
    exact readNftTransfer_of_args hfunction
      (Transfers.ofNftArgs?_sent destination owner item function)
  · intro hdestination sender hsender
    rw [read_toData_of_nftTransfer rfl hdestination]
    exact readNftTransfer_of_args hfunction
      (Transfers.ofNftArgs?_delivered hsender item function)
  · intro owner howner
    rw [read_toData_of_multiTransfer rfl howner]
    exact readMultiTransfer_of_args
      (Transfers.ofMultiArgs?_sent hitems hcount destination owner function)
  · intro hdestination sender hsender
    rw [read_toData_of_multiTransfer rfl hdestination]
    exact readMultiTransfer_of_args
      (Transfers.ofMultiArgs?_delivered hitems hcount hsender function)

/-- Two items for a contract, with a function to run there. -/
theorem readsTransfers_of_two_items :
    let r : CallReader := ⟨⟨.hex, "", 11, by decide⟩, ⟨3, by decide⟩⟩
    let contract : Bytes := [0, 0, 0, 0, 0, 0, 0, 0, 0, 0, 1]
    let items : List Parcel := [⟨"NFT-aa", 19, 1, by decide⟩, ⟨"TKN-bb", 0, 1000, by decide⟩]
    let said : CallSummary :=
      { operation := "MultiESDTNFTTransfer"
        function := "swap"
        tokens := ["NFT-aa-13", "TKN-bb"]
        values := ["1", "1000"]
        receivers := ["0000000000000000000001", "0000000000000000000001"]
        receiverShards := [1, 1] }
    r.ReadsTransfer contract (Transfers.sentItems contract items (some "swap"))
      (Transfers.deliveredItems items (some "swap")) said := by
  intro r contract items said
  have hfunction : ∀ name ∈ some "swap", isAsciiText name = true := by
    rintro name ⟨⟩
    decide
  have hsaid : r.transferSummary CallKind.multiTransferName contract items (some "swap") =
      said := by
    decide +kernel
  rw [← hsaid]
  exact (readsTransfers r contract hfunction).2 items (by decide) (by decide)

end CallReader

end ChainIndex
