import ChainIndex.Config
import ChainIndex.Text.Bech32
import ChainIndex.Number.Digits

/-!
# Addresses

A public key becomes an address by the encoding of the network. Keys have one length throughout
a network, which is never zero. Contract addresses can be told by their leading zero bytes.
-/

namespace ChainIndex

/-- How a network writes public keys. -/
structure AddressFormat where
  encoding : AddressEncoding
  readablePart : String
  length : Nat
  length_pos : 0 < length

namespace AddressFormat

/-- The format that settings describe. -/
def ofConfig (c : AddressConfig) : Except Error AddressFormat :=
  if h : 0 < c.length.toNat then .ok ⟨c.encoding, c.readablePart, c.length.toNat, h⟩
  else .error (.invalidConfig "address length should be greater than 0")

/-- The error for a fault in hexadecimal text. -/
def hexError (f : Hex.Fault) : Error :=
  .invalidInput ("Could not decode hex: " ++ f.message)

/-- The error for a fault in bech32 text. -/
def bech32Error (f : Bech32.Fault) : Error :=
  .invalidInput ("Could not decode bech32 address: " ++ f.message)

/-- The address of a public key. -/
def encode (f : AddressFormat) (key : Bytes) : Except Error String :=
  if key.length ≠ f.length then
    .error (.invalidInput ("wrong size of public key: expected " ++ Digits.ofNat f.length
      ++ ", got " ++ Digits.ofNat key.length))
  else
    match f.encoding with
    | .hex => .ok (Hex.encode key)
    | .bech32 => (Bech32.encode f.readablePart key).mapError bech32Error

/-- The address of a public key, or the empty text if it has none. -/
def encodeOrEmpty (f : AddressFormat) (key : Bytes) : String :=
  match f.encode key with
  | .ok s => s
  | .error _ => ""

/-- The bytes that an address spells, of whatever length. -/
def decodeBytes (f : AddressFormat) (address : String) : Except Error Bytes :=
  match f.encoding with
  | .hex => (Hex.decodeText address).mapError hexError
  | .bech32 =>
    match Bech32.decode address with
    | .error fault => .error (bech32Error fault)
    | .ok (part, digits) =>
      if part ≠ f.readablePart then
        .error (.invalidInput ("unexpected address prefix " ++ part))
      else
        match Bech32.bytesOfDigits? digits with
        | none => .error (bech32Error .badPadding)
        | some bs => .ok bs

/-- The public key of an address. -/
def decode (f : AddressFormat) (address : String) : Except Error Bytes :=
  match f.decodeBytes address with
  | .error e => .error e
  | .ok bs =>
    if bs.length ≠ f.length then
      .error (.invalidInput ("decoded address " ++ address ++ " has " ++ Digits.ofNat bs.length
        ++ " bytes, expected " ++ Digits.ofNat f.length))
    else .ok bs

/-- Whether a key is the address of nobody, to which contracts are deployed: all zero bytes. -/
def isNobody (f : AddressFormat) (key : Bytes) : Bool :=
  key.length == f.length && Bytes.isZero key

end AddressFormat

/-- Whether a public key is that of a contract: eight zero bytes, then a machine of two bytes and
more. -/
def isContractKey (key : Bytes) : Bool :=
  10 < key.length && Bytes.isZero (key.take 8)

end ChainIndex
