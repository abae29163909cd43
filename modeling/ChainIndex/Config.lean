import ChainIndex.Error
import ChainIndex.Json.Record

/-!
# Settings

What an indexer has to know about its network: the decimals of the currency, the number of
shards, how addresses are written, what gas costs, and the names of the indices.
-/

namespace ChainIndex

/-- How public keys are written as text. -/
inductive AddressEncoding where
  | hex
  | bech32
deriving Repr, DecidableEq, Inhabited

namespace AddressEncoding

/-- The name of an encoding in settings. -/
def name : AddressEncoding → String
  | .hex => "hex"
  | .bech32 => "bech32"

/-- The encoding with a name. -/
def ofName? : String → Option AddressEncoding
  | "hex" => some .hex
  | "bech32" => some .bech32
  | _ => none

end AddressEncoding

/-- Settings for addresses: the encoding, the readable part of bech32 text, and the number of
bytes of a public key. -/
structure AddressConfig where
  encoding : AddressEncoding := .bech32
  readablePart : String := "erd"
  length : UInt64 := 32
deriving Repr, DecidableEq, Inhabited

/-- Settings for fees. The modifier is a decimal number by which the gas price is multiplied for
the gas that goes beyond moving a balance. -/
structure EconomicsConfig where
  minGasLimit : UInt64 := 50000
  gasPerDataByte : UInt64 := 1500
  gasPriceModifier : String := "0.01"
deriving Repr, DecidableEq, Inhabited

/-- The names of the indices that documents are written to. -/
structure IndexNames where
  transactions : String := "transactions"
  results : String := "scresults"
  receipts : String := "receipts"
  accounts : String := "accounts"
  accountsHistory : String := "accountshistory"
  tokenAccounts : String := "accountsesdt"
  tokenAccountsHistory : String := "accountsesdthistory"
  tokens : String := "tokens"
  esdts : String := "esdts"
  deploys : String := "scdeploys"
  delegators : String := "delegators"
  logs : String := "logs"
  events : String := "events"
  tags : String := "tags"
  operations : String := "operations"
deriving Repr, DecidableEq, Inhabited

/-- All settings. In import mode only records that arrive in the indexing shard are written. -/
structure Config where
  denomination : Int32 := 18
  shardCount : UInt32 := 3
  importMode : Bool := false
  address : AddressConfig := {}
  economics : EconomicsConfig := {}
  indices : IndexNames := {}
  logFilter : String := "info"
deriving Repr, DecidableEq, Inhabited

namespace Config

/-- Refuses settings that no indexer can work with. -/
def validate (c : Config) : Except Error Unit :=
  if c.denomination < 0 then
    .error (.invalidConfig ConversionError.negativeDenomination.message)
  else if c.shardCount = 0 then
    .error (.invalidConfig "num_of_shards should be greater than 0")
  else if c.address.encoding = .bech32 ∧ c.address.readablePart.isEmpty then
    .error (.invalidConfig "bech32 addresses need a human readable part")
  else .ok ()

end Config

/-! ### Settings in JSON -/

namespace AddressConfig

/-- Reads the settings for addresses. -/
def ofJson? (j : Json) : Option AddressConfig := do
  let m ← j.members? ["encoding", "hrp", "length"]
  let encoding ← m.required "encoding" fun v => v.choice?.bind AddressEncoding.ofName?
  let readablePart ← m.required "hrp" Json.string?
  let length ← m.required "length" Json.uint64?
  some ⟨encoding, readablePart, length⟩

/-- Writes the settings for addresses. -/
def toJson (c : AddressConfig) : Json :=
  .object [("encoding", .string c.encoding.name), ("hrp", .string c.readablePart),
    ("length", .uint64 c.length)]

end AddressConfig

namespace EconomicsConfig

/-- Reads the settings for fees. -/
def ofJson? (j : Json) : Option EconomicsConfig := do
  let m ← j.members? ["min_gas_limit", "gas_per_data_byte", "gas_price_modifier"]
  let minGasLimit ← m.required "min_gas_limit" Json.uint64?
  let gasPerDataByte ← m.required "gas_per_data_byte" Json.uint64?
  let gasPriceModifier ← m.required "gas_price_modifier" Json.string?
  some ⟨minGasLimit, gasPerDataByte, gasPriceModifier⟩

/-- Writes the settings for fees. -/
def toJson (c : EconomicsConfig) : Json :=
  .object [("min_gas_limit", .uint64 c.minGasLimit),
    ("gas_per_data_byte", .uint64 c.gasPerDataByte),
    ("gas_price_modifier", .string c.gasPriceModifier)]

end EconomicsConfig

namespace IndexNames

/-- The names of the settings for index names, in order. -/
def settingNames : List String :=
  ["transactions", "scresults", "receipts", "accounts", "accounts_history", "accounts_esdt",
    "accounts_esdt_history", "tokens", "esdts", "scdeploys", "delegators", "logs", "events", "tags",
    "operations"]

/-- Reads the names of the indices. -/
def ofJson? (j : Json) : Option IndexNames := do
  let m ← j.members? settingNames
  let transactions ← m.required "transactions" Json.string?
  let results ← m.required "scresults" Json.string?
  let receipts ← m.required "receipts" Json.string?
  let accounts ← m.required "accounts" Json.string?
  let accountsHistory ← m.required "accounts_history" Json.string?
  let tokenAccounts ← m.required "accounts_esdt" Json.string?
  let tokenAccountsHistory ← m.required "accounts_esdt_history" Json.string?
  let tokens ← m.required "tokens" Json.string?
  let esdts ← m.required "esdts" Json.string?
  let deploys ← m.required "scdeploys" Json.string?
  let delegators ← m.required "delegators" Json.string?
  let logs ← m.required "logs" Json.string?
  let events ← m.required "events" Json.string?
  let tags ← m.required "tags" Json.string?
  let operations ← m.required "operations" Json.string?
  some ⟨transactions, results, receipts, accounts, accountsHistory, tokenAccounts,
    tokenAccountsHistory, tokens, esdts, deploys, delegators, logs, events, tags, operations⟩

/-- Writes the names of the indices. -/
def toJson (n : IndexNames) : Json :=
  .object (settingNames.zip
    ([n.transactions, n.results, n.receipts, n.accounts, n.accountsHistory, n.tokenAccounts,
      n.tokenAccountsHistory, n.tokens, n.esdts, n.deploys, n.delegators, n.logs, n.events, n.tags,
      n.operations].map .string))

end IndexNames

namespace Config

/-- Reads all settings. -/
def ofJson? (j : Json) : Option Config := do
  let m ← j.members? ["denomination", "num_of_shards", "import_db", "address", "economics",
    "indices", "log_filter"]
  let denomination ← m.required "denomination" Json.int32?
  let shardCount ← m.required "num_of_shards" Json.uint32?
  let importMode ← m.defaulted "import_db" false Json.bool?
  let address ← m.defaulted "address" {} AddressConfig.ofJson?
  let economics ← m.defaulted "economics" {} EconomicsConfig.ofJson?
  let indices ← m.defaulted "indices" {} IndexNames.ofJson?
  let logFilter ← m.required "log_filter" Json.string?
  some ⟨denomination, shardCount, importMode, address, economics, indices, logFilter⟩

/-- Writes all settings. -/
def toJson (c : Config) : Json :=
  .object [("denomination", .int32 c.denomination), ("num_of_shards", .uint32 c.shardCount),
    ("import_db", .bool c.importMode), ("address", c.address.toJson),
    ("economics", c.economics.toJson), ("indices", c.indices.toJson),
    ("log_filter", .string c.logFilter)]

end Config

end ChainIndex
