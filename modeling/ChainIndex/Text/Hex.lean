import ChainIndex.Text.Utf8

/-!
# Hexadecimal text

Two digits a byte, written in lower case and read in either case. The reader works on the bytes
of the text, so positions in its faults count bytes.
-/

namespace ChainIndex.Hex

/-- The lower-case digit for `n % 16`. -/
def digit (n : Nat) : Char :=
  if n % 16 < 10 then Char.ofNat (48 + n % 16) else Char.ofNat (87 + n % 16)

/-- The two digits of a byte. -/
def byteDigits (b : UInt8) : List Char :=
  [digit (b.toNat / 16), digit b.toNat]

/-- The digits of a byte string. -/
def encodeChars (bs : Bytes) : List Char :=
  bs.flatMap byteDigits

/-- The hexadecimal text of a byte string. -/
def encode (bs : Bytes) : String :=
  String.ofList (encodeChars bs)

/-- The value of a digit in either case. -/
def value? (b : UInt8) : Option Nat :=
  let n := b.toNat
  if 48 ≤ n ∧ n ≤ 57 then some (n - 48)
  else if 97 ≤ n ∧ n ≤ 102 then some (n - 87)
  else if 65 ≤ n ∧ n ≤ 70 then some (n - 55)
  else none

/-- Why a text is not hexadecimal. -/
inductive Fault where
  /-- The number of bytes is odd. -/
  | oddLength
  /-- The byte at a position is no digit. -/
  | notADigit (byte : UInt8) (position : Nat)
deriving Repr, DecidableEq

/-- A byte as it stands between quotes in a message: read as a Latin-1 character, with quotes,
backslashes and what cannot be seen escaped. -/
def Fault.shown (b : UInt8) : String :=
  match b.toNat with
  | 0 => "\\0"
  | 9 => "\\t"
  | 10 => "\\n"
  | 13 => "\\r"
  | 39 => "\\'"
  | 92 => "\\\\"
  | n =>
    if n < 0x20 ∨ (0x7F ≤ n ∧ n ≤ 0xA0) ∨ n = 0xAD then
      let digits := if n < 16 then [digit n] else [digit (n / 16), digit n]
      "\\u\x7b" ++ String.ofList digits ++ "\x7d"
    else String.singleton (Char.ofNat n)

/-- The wording of a fault. -/
def Fault.message : Fault → String
  | .oddLength => "Odd number of digits"
  | .notADigit b position =>
    "Invalid character '" ++ shown b ++ "' at position " ++ toString position

/-- The bytes of an even number of digits that stand at `position` in the whole text. -/
def decodeFrom (position : Nat) : Bytes → Except Fault Bytes
  | [] => .ok []
  | [_] => .error .oddLength
  | a :: b :: rest =>
    match value? a, value? b with
    | none, _ => .error (.notADigit a position)
    | some _, none => .error (.notADigit b (position + 1))
    | some high, some low =>
      (decodeFrom (position + 2) rest).map (UInt8.ofNat (16 * high + low) :: ·)

/-- The bytes that a text of digits stands for. The length is looked at before any digit. -/
def decode (text : Bytes) : Except Fault Bytes :=
  if text.length % 2 = 1 then .error .oddLength else decodeFrom 0 text

/-- `decode` without the reason of a failure. -/
def decode? (text : Bytes) : Option Bytes :=
  (decode text).toOption

/-- The bytes that a hexadecimal text stands for. -/
def decodeText (s : String) : Except Fault Bytes :=
  decode (Utf8.encode s)

end ChainIndex.Hex
