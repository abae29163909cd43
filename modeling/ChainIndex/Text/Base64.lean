import ChainIndex.Bytes

/-!
# Base64 text

The standard alphabet with padding. There is one written form for each byte string: the reader
wants the padding and refuses unused bits that are not zero.
-/

namespace ChainIndex.Base64

/-- The sign for six bits. -/
def sign (n : Nat) : Char :=
  if n < 26 then Char.ofNat (65 + n)
  else if n < 52 then Char.ofNat (71 + n)
  else if n < 62 then Char.ofNat (n - 4)
  else if n = 62 then '+'
  else '/'

/-- The six bits of a sign. -/
def value? (c : Char) : Option Nat :=
  let n := c.toNat
  if 65 ≤ n ∧ n ≤ 90 then some (n - 65)
  else if 97 ≤ n ∧ n ≤ 122 then some (n - 71)
  else if 48 ≤ n ∧ n ≤ 57 then some (n + 4)
  else if c = '+' then some 62
  else if c = '/' then some 63
  else none

/-- The signs of a byte string, four for each three bytes. -/
def encodeChars : Bytes → List Char
  | [] => []
  | [a] => [sign (a.toNat / 4), sign (a.toNat % 4 * 16), '=', '=']
  | [a, b] =>
    [sign (a.toNat / 4), sign (a.toNat % 4 * 16 + b.toNat / 16), sign (b.toNat % 16 * 4), '=']
  | a :: b :: c :: rest =>
    sign (a.toNat / 4) :: sign (a.toNat % 4 * 16 + b.toNat / 16)
      :: sign (b.toNat % 16 * 4 + c.toNat / 64) :: sign (c.toNat % 64) :: encodeChars rest

/-- The base64 text of a byte string. -/
def encode (bs : Bytes) : String :=
  String.ofList (encodeChars bs)

/-- The bytes of the last four signs, of which the last or the last two may be padding. -/
def decodeLast? (a b c d : Char) : Option Bytes := do
  let x ← value? a
  let y ← value? b
  if c = '=' ∧ d = '=' then
    if y % 16 = 0 then some [UInt8.ofNat (x * 4 + y / 16)] else none
  else
    let z ← value? c
    let first := UInt8.ofNat (x * 4 + y / 16)
    let second := UInt8.ofNat (y % 16 * 16 + z / 4)
    if d = '=' then
      if z % 4 = 0 then some [first, second] else none
    else
      let w ← value? d
      some [first, second, UInt8.ofNat (z % 4 * 64 + w)]

/-- The bytes that a list of signs stands for. -/
def decodeChars? : List Char → Option Bytes
  | [] => some []
  | [a, b, c, d] => decodeLast? a b c d
  | a :: b :: c :: d :: rest => do
    let x ← value? a
    let y ← value? b
    let z ← value? c
    let w ← value? d
    let bs ← decodeChars? rest
    some (UInt8.ofNat (x * 4 + y / 16) :: UInt8.ofNat (y % 16 * 16 + z / 4)
      :: UInt8.ofNat (z % 4 * 64 + w) :: bs)
  | _ => none

/-- The bytes that a base64 text stands for. -/
def decode? (s : String) : Option Bytes :=
  decodeChars? s.toList

end ChainIndex.Base64
