import ChainIndex.Text.Utf8

/-!
# Bech32 text

A readable part, the separator `1`, and digits of five bits of which the last six are a checksum
over everything before them. Writing uses the first of the two checksum constants; reading takes
both, in lower or upper case but not mixed, and gives the readable part in lower case.
-/

namespace ChainIndex.Bech32

/-- The thirty-two digits in order of their value. -/
def alphabet : List Char :=
  "qpzry9x8gf2tvdw0s3jn54khce6mua7l".toList

/-- The digit of a five-bit value. -/
def sign (v : BitVec 5) : Char :=
  alphabet.getD v.toNat 'q'

/-- The value of a lower-case digit. -/
def value? (c : Char) : Option (BitVec 5) :=
  (alphabet.findIdx? (· == c)).map (BitVec.ofNat 5)

/-- Why a text is not bech32, or why bytes cannot be written so. -/
inductive Fault where
  | noSeparator
  | badLength
  | badCharacter (c : Char)
  | mixedCase
  | badChecksum
  | badPadding
deriving Repr, DecidableEq

/-- The wording of a fault. -/
def Fault.message : Fault → String
  | .noSeparator => "missing human-readable separator"
  | .badLength => "invalid length"
  | .badCharacter c => "invalid character (" ++ String.singleton c ++ ")"
  | .mixedCase => "mixed-case strings not allowed"
  | .badChecksum => "invalid checksum"
  | .badPadding => "invalid padding"

/-! ### Checksum -/

/-- The multiple of the generator that goes with the five bits which leave the register. -/
def feedback (top : BitVec 5) : BitVec 30 :=
  (if top.getLsbD 0 then 0x3b6a57b2#30 else 0)
    ^^^ (if top.getLsbD 1 then 0x26508e6d#30 else 0)
    ^^^ (if top.getLsbD 2 then 0x1ea119fa#30 else 0)
    ^^^ (if top.getLsbD 3 then 0x3d4233dd#30 else 0)
    ^^^ (if top.getLsbD 4 then 0x2a1462b3#30 else 0)

/-- The register after one more digit. -/
def advance (register : BitVec 30) (v : BitVec 5) : BitVec 30 :=
  (register <<< 5) ^^^ v.setWidth 30 ^^^ feedback ((register >>> 25).setWidth 5)

/-- The register after a list of digits. -/
def residue (digits : List (BitVec 5)) : BitVec 30 :=
  digits.foldl advance 1

/-- The readable part as digits: high bits of each byte, a zero, low bits of each byte. -/
def spreadPart (part : Bytes) : List (BitVec 5) :=
  part.map (fun b => BitVec.ofNat 5 (b.toNat / 32))
    ++ 0 :: part.map (fun b => BitVec.ofNat 5 b.toNat)

/-- The six digits that a register holds, high digits first. -/
def registerDigits (register : BitVec 30) : List (BitVec 5) :=
  [25, 20, 15, 10, 5, 0].map fun n => (register >>> n).setWidth 5

/-- The six digits that make the residue of the whole one. -/
def checksum (part : Bytes) (digits : List (BitVec 5)) : List (BitVec 5) :=
  registerDigits (residue (spreadPart part ++ digits ++ List.replicate 6 0) ^^^ 1)

/-- Whether a residue is that of one of the two constants. -/
def isSoundResidue (r : BitVec 30) : Bool :=
  r == 1 || r == 0x2bc830a3#30

/-! ### Eight bits and five bits -/

/-- The bits of a byte, high bit first. -/
def byteBits (b : UInt8) : List Bool :=
  [7, 6, 5, 4, 3, 2, 1, 0].map fun i => b.toNat.testBit i

/-- Five bits as a value, high bit first. -/
def digitOf (a b c d e : Bool) : BitVec 5 :=
  BitVec.ofNat 5 (16 * a.toNat + 8 * b.toNat + 4 * c.toNat + 2 * d.toNat + e.toNat)

/-- Bits by fives, the last five filled up with zeros. -/
def fives : List Bool → List (BitVec 5)
  | [] => []
  | [a] => [digitOf a false false false false]
  | [a, b] => [digitOf a b false false false]
  | [a, b, c] => [digitOf a b c false false]
  | [a, b, c, d] => [digitOf a b c d false]
  | a :: b :: c :: d :: e :: rest => digitOf a b c d e :: fives rest

/-- The digits of a byte string. -/
def digitsOfBytes (bs : Bytes) : List (BitVec 5) :=
  fives (bs.flatMap byteBits)

/-- The bits of a digit, high bit first. -/
def digitBits (v : BitVec 5) : List Bool :=
  [4, 3, 2, 1, 0].map fun i => v.getLsbD i

/-- Bits by eights; fewer than five may be left over, all of them zero. -/
def eights? : List Bool → Option Bytes
  | a :: b :: c :: d :: e :: f :: g :: h :: rest =>
    let n := 128 * a.toNat + 64 * b.toNat + 32 * c.toNat + 16 * d.toNat + 8 * e.toNat
      + 4 * f.toNat + 2 * g.toNat + h.toNat
    (eights? rest).map (UInt8.ofNat n :: ·)
  | left => if left.length < 5 ∧ left.all (· == false) then some [] else none

/-- The bytes of a list of digits. -/
def bytesOfDigits? (digits : List (BitVec 5)) : Option Bytes :=
  eights? (digits.flatMap digitBits)

/-! ### Case and the readable part -/

/-- The letter case of a text; without letters it has none. -/
inductive LetterCase where
  | unseen
  | lower
  | upper
deriving Repr, DecidableEq

/-- The case after one more character; none if the two do not go together. -/
def LetterCase.join? (k : LetterCase) (c : Char) : Option LetterCase :=
  if c.isLower then
    if k = .upper then none else some .lower
  else if c.isUpper then
    if k = .lower then none else some .upper
  else some k

/-- The case of the characters after those of a case, if each is allowed in a readable part. -/
def readableCase (k : LetterCase) : List Char → Except Fault LetterCase
  | [] => .ok k
  | c :: rest =>
    if 33 ≤ c.toNat ∧ c.toNat ≤ 126 then
      match k.join? c with
      | none => .error .mixedCase
      | some k => readableCase k rest
    else .error (.badCharacter c)

/-- The case of a readable part of one to eighty-three bytes. -/
def checkReadable (part : String) : Except Fault LetterCase :=
  if part.utf8ByteSize = 0 ∨ 83 < part.utf8ByteSize then .error .badLength
  else readableCase .unseen part.toList

/-- The readable part in the case that it is written in. -/
def lowered (part : String) (k : LetterCase) : String :=
  if k = .upper then String.ofList (part.toList.map Char.toLower) else part

/-! ### Writing and reading -/

/-- The text of a byte string under a readable part. -/
def encode (part : String) (bs : Bytes) : Except Fault String := do
  let k ← checkReadable part
  let part := lowered part k
  let digits := digitsOfBytes bs
  let sum := checksum (Utf8.encode part) digits
  .ok (String.ofList (part.toList ++ '1' :: (digits ++ sum).map sign))

/-- The values of digits in one case, which goes on from the case of the readable part. -/
def readDigits (k : LetterCase) : List Char → Except Fault (List (BitVec 5))
  | [] => .ok []
  | c :: rest =>
    match k.join? c with
    | none => .error .mixedCase
    | some k =>
      match value? c.toLower with
      | none => .error (.badCharacter c)
      | some v => (readDigits k rest).map (v :: ·)

/-- The readable part and the digits of a text, cut at its last separator. -/
def splitLast (cs : List Char) : Option (List Char × List Char) :=
  match cs.reverse.span (· != '1') with
  | (_, []) => none
  | (tail, _ :: front) => some (front.reverse, tail.reverse)

/-- The readable part in lower case and the digits before the checksum. -/
def decode (text : String) : Except Fault (String × List (BitVec 5)) := do
  let (front, tail) ← match splitLast text.toList with
    | none => .error .noSeparator
    | some parts => .ok parts
  let part := String.ofList front
  let k ← checkReadable part
  let part := lowered part k
  let digits ← readDigits k tail
  if digits.length < 6 then .error .badLength
  else if isSoundResidue (residue (spreadPart (Utf8.encode part) ++ digits)) then
    .ok (part, digits.take (digits.length - 6))
  else .error .badChecksum

end ChainIndex.Bech32
