import ChainIndex.Text.Hex

/-!
# Calls

The data of a transaction or a result may spell a call: the name of a function, then its
arguments in hexadecimal, each after an at sign. The functions built into the protocol fall into
kinds by what their arguments say.
-/

namespace ChainIndex

/-- The byte that separates the parts of a call. -/
def atSign : UInt8 := 0x40

/-- A function and its arguments. -/
structure Call where
  function : String
  args : List Bytes
deriving Repr, DecidableEq

namespace Call

/-- The call that data spells: data is text, the function has a name, and every argument is
hexadecimal. -/
def ofData? (data : Bytes) : Option Call :=
  if (Utf8.decodeChars? data).isNone then none
  else
    match data.splitOn atSign with
    | [] => none
    | function :: args =>
      if function.isEmpty then none
      else (args.mapM Hex.decode?).map fun args => ⟨Utf8.lenient function, args⟩

end Call

/-- What a function is, by its name. -/
inductive CallKind where
  /-- Transfer of a fungible token to the receiver. -/
  | tokenTransfer
  /-- Transfer of one item of a collection. -/
  | nftTransfer
  /-- Transfer of any number of tokens and items. -/
  | multiTransfer
  /-- A change of the supply of a fungible token. -/
  | tokenQuantity
  /-- A change of the supply of an item. -/
  | nftQuantity
  /-- An owner's hold on somebody's tokens. -/
  | blocking
  /-- A transaction wrapped as text in an argument. -/
  | relayed
  /-- A transaction whose parts are arguments. -/
  | relayedParts
  /-- Any other function of the protocol. -/
  | builtin
  /-- A function of a contract. -/
  | contract
deriving Repr, DecidableEq, Inhabited

namespace CallKind

/-- The name of the transfer of a fungible token. -/
def tokenTransferName : String := "ESDTTransfer"

/-- The name of the transfer of one item of a collection. -/
def nftTransferName : String := "ESDTNFTTransfer"

/-- The name of the transfer of any number of tokens and items. -/
def multiTransferName : String := "MultiESDTNFTTransfer"

/-- The functions of the protocol that have no kind of their own. -/
def builtinNames : List String :=
  ["ClaimDeveloperRewards", "ChangeOwnerAddress", "SetUserName", "SaveKeyValue", "ESDTBurn",
    "ESDTPause", "ESDTUnPause", "ESDTSetRole", "ESDTUnSetRole", "ESDTSetLimitedTransfer",
    "ESDTUnSetLimitedTransfer", "ESDTNFTCreateRoleTransfer", "ESDTNFTAddURI",
    "ESDTNFTUpdateAttributes", "SetGuardian", "GuardAccount", "UnGuardAccount", "ESDTSetTokenType",
    "ESDTModifyRoyalties", "ESDTSetNewURIs", "ESDTModifyCreator", "ESDTMetaDataRecreate",
    "ESDTMetaDataUpdate", "MigrateDataTrie"]

/-- The kind of the function with a name. -/
def ofName (name : String) : CallKind :=
  match name with
  | "ESDTTransfer" => .tokenTransfer
  | "ESDTNFTTransfer" => .nftTransfer
  | "MultiESDTNFTTransfer" => .multiTransfer
  | "ESDTLocalBurn" | "ESDTLocalMint" => .tokenQuantity
  | "ESDTWipe" | "ESDTFreeze" | "ESDTUnFreeze" => .blocking
  | "ESDTNFTCreate" | "ESDTNFTBurn" | "ESDTNFTAddQuantity" => .nftQuantity
  | "relayedTx" => .relayed
  | "relayedTxV2" => .relayedParts
  | name => if builtinNames.contains name then .builtin else .contract

end CallKind

/-- Whether a function transfers items of collections. -/
def isNftTransferName (name : String) : Bool :=
  name == CallKind.nftTransferName || name == CallKind.multiTransferName

end ChainIndex
