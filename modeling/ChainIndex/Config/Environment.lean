import ChainIndex.Config
import ChainIndex.Number.Digits

/-!
# Settings from the environment

A variable that is set and not empty replaces the default of its setting. Variables are looked at
in a fixed order, the first bad one is the error, and the settings as a whole are validated last.
-/

namespace ChainIndex.Config

/-- The value of a variable that is set and not empty. -/
def valueOf? (env : String → Option String) (key : String) : Option String :=
  (env key).filter fun value => !value.isEmpty

/-- The error for a variable whose value cannot be read. -/
def badVariable (key value reason : String) : Error :=
  .invalidConfig (key ++ " has invalid value " ++ value ++ ": " ++ reason)

/-- The setting of a variable, or the default. The reader gives the reason of a failure. -/
def setting {α : Type} (env : String → Option String) (key : String) (default : α)
    (read : String → Except String α) : Except Error α :=
  match valueOf? env key with
  | none => .ok default
  | some value => (read value).mapError (badVariable key value)

/-- Reads the number of decimals of the currency. -/
def readDenomination (s : String) : Except String Int32 :=
  ((Digits.boundedInt 0x7FFFFFFF s.toList).map Int32.ofInt).mapError Digits.Fault.message

/-- Reads the number of shards. -/
def readShardCount (s : String) : Except String UInt32 :=
  ((Digits.boundedNat 0xFFFFFFFF s.toList).map UInt32.ofNat).mapError Digits.Fault.message

/-- Reads a switch. -/
def readSwitch : String → Except String Bool
  | "true" => .ok true
  | "false" => .ok false
  | _ => .error "provided string was not `true` or `false`"

/-- Reads the name of an address encoding. -/
def readEncoding (s : String) : Except String AddressEncoding :=
  match AddressEncoding.ofName? s with
  | some e => .ok e
  | none => .error "Matching variant not found"

/-- The variables that are looked at, in order. -/
def variableNames : List String :=
  ["INDEXER_DENOMINATION", "INDEXER_NUM_OF_SHARDS", "INDEXER_IMPORT_DB",
    "INDEXER_ADDRESS_ENCODING", "INDEXER_ADDRESS_HRP", "INDEXER_GAS_PRICE_MODIFIER", "RUST_LOG"]

/-- The settings of an environment. -/
def ofEnvironment (env : String → Option String) : Except Error Config := do
  let base : Config := {}
  let denomination ← setting env "INDEXER_DENOMINATION" base.denomination readDenomination
  let shardCount ← setting env "INDEXER_NUM_OF_SHARDS" base.shardCount readShardCount
  let importMode ← setting env "INDEXER_IMPORT_DB" base.importMode readSwitch
  let encoding ← setting env "INDEXER_ADDRESS_ENCODING" base.address.encoding readEncoding
  let readablePart ← setting env "INDEXER_ADDRESS_HRP" base.address.readablePart .ok
  let modifier ← setting env "INDEXER_GAS_PRICE_MODIFIER" base.economics.gasPriceModifier .ok
  let logFilter ← setting env "RUST_LOG" base.logFilter .ok
  let config : Config :=
    { base with
      denomination, shardCount, importMode, logFilter
      address := { base.address with encoding, readablePart }
      economics := { base.economics with gasPriceModifier := modifier } }
  config.validate
  return config

end ChainIndex.Config
