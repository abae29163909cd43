import ChainIndex.Json
import ChainIndex.Text.Utf8
import ChainIndex.Number.Digits

/-!
# JSON tokens

Splits bytes into the tokens of JSON text. Bytes that are not ASCII may stand inside quotes only.
Quoted text that is not Unicode, by its bytes or by half a surrogate pair among its escapes, is
still a token: it is an error only where somebody reads it.
-/

namespace ChainIndex.Json

/-- A token; quoted text that is not Unicode has no content. -/
inductive Token where
  | openBrace
  | closeBrace
  | openBracket
  | closeBracket
  | comma
  | colon
  /-- A literal name or a number. -/
  | scalar (v : Json)
  | text (s : Option String)
deriving Repr, Inhabited

/-- Whether a byte belongs to a literal name or a number. -/
def isWordByte (b : UInt8) : Bool :=
  let c := Char.ofUInt8 b
  c.isAlphanum || c == '+' || c == '-' || c == '.'

/-- Whether characters are one digit or more. -/
def areDigits (cs : List Char) : Bool :=
  !cs.isEmpty && cs.all Char.isDigit

/-- Whether characters are the exponent of a number, or nothing. -/
def isExponent : List Char → Bool
  | [] => true
  | e :: '+' :: digits => (e == 'e' || e == 'E') && areDigits digits
  | e :: '-' :: digits => (e == 'e' || e == 'E') && areDigits digits
  | e :: digits => (e == 'e' || e == 'E') && areDigits digits

/-- Whether characters are the fraction and the exponent of a number, either of them absent. -/
def isFraction : List Char → Bool
  | '.' :: rest =>
    areDigits (rest.takeWhile Char.isDigit) && isExponent (rest.dropWhile Char.isDigit)
  | rest => isExponent rest

/-- The number that characters without a sign spell: no zero in front of other digits. A number
with a fraction or an exponent is foreign, and so is minus zero. -/
def number? (negative : Bool) (cs : List Char) : Option Json :=
  let digits := cs.takeWhile Char.isDigit
  let rest := cs.dropWhile Char.isDigit
  if digits.isEmpty || (digits.head? == some '0' && digits.length != 1) then none
  else if rest.isEmpty then
    (Digits.magnitude? digits).map fun n =>
      if negative then (if n = 0 then .foreign else .int (-Int.ofNat n)) else .int (Int.ofNat n)
  else if isFraction rest then some .foreign
  else none

/-- The value of a literal name or a number. -/
def scalar? : List Char → Option Json
  | ['n', 'u', 'l', 'l'] => some .null
  | ['t', 'r', 'u', 'e'] => some (.bool true)
  | ['f', 'a', 'l', 's', 'e'] => some (.bool false)
  | '-' :: cs => number? true cs
  | cs => number? false cs

/-- The token of a word, given in reverse; no word gives no token. -/
def wordTokens? (word : Bytes) : Option (List Token) :=
  if word.isEmpty then some []
  else (scalar? (word.reverse.map Char.ofUInt8)).map fun v => [.scalar v]

/-- The value of a hexadecimal digit. -/
def hexValue? (b : UInt8) : Option Nat :=
  let n := b.toNat
  if 48 ≤ n ∧ n ≤ 57 then some (n - 48)
  else if 97 ≤ n ∧ n ≤ 102 then some (n - 87)
  else if 65 ≤ n ∧ n ≤ 70 then some (n - 55)
  else none

/-- The number of four hexadecimal digits. -/
def hexFour? (a b c d : UInt8) : Option Nat := do
  let w ← hexValue? a
  let x ← hexValue? b
  let y ← hexValue? c
  let z ← hexValue? d
  some (((w * 16 + x) * 16 + y) * 16 + z)

/-- The character of a short escape. -/
def shortEscape? (b : UInt8) : Option UInt8 :=
  match Char.ofUInt8 b with
  | '"' => some 0x22
  | '\\' => some 0x5C
  | '/' => some 0x2F
  | 'b' => some 0x08
  | 'f' => some 0x0C
  | 'n' => some 0x0A
  | 'r' => some 0x0D
  | 't' => some 0x09
  | _ => none

/-- Whether a number is the first half of a surrogate pair. -/
def isHighSurrogate (n : Nat) : Bool :=
  0xD800 ≤ n && n ≤ 0xDBFF

/-- Whether a number is the second half of a surrogate pair. -/
def isLowSurrogate (n : Nat) : Bool :=
  0xDC00 ≤ n && n ≤ 0xDFFF

/-- Quoted text part way through: its bytes so far, latest first, whether they can still be
Unicode, and the first half of a surrogate pair whose second half is due. -/
structure Quoted where
  done : Bytes := []
  sound : Bool := true
  high : Option Nat := none
deriving Repr, DecidableEq

namespace Quoted

/-- The text with one more byte. -/
def addByte (q : Quoted) (b : UInt8) : Quoted :=
  ⟨b :: q.done, q.sound && q.high.isNone, none⟩

/-- The text with the character of a number. -/
def addChar (q : Quoted) (n : Nat) : Quoted :=
  ⟨(Utf8.encodeChar (Char.ofNat n)).reverse ++ q.done, q.sound, none⟩

/-- The text with one more unit of UTF-16. -/
def addUnit (q : Quoted) (n : Nat) : Quoted :=
  match q.high with
  | some h =>
    if isLowSurrogate n then q.addChar (0x10000 + (h - 0xD800) * 0x400 + (n - 0xDC00))
    else ⟨q.done, false, none⟩
  | none =>
    if isHighSurrogate n then ⟨q.done, q.sound, some n⟩
    else if isLowSurrogate n then ⟨q.done, false, none⟩
    else q.addChar n

/-- The whole text, if it is Unicode. -/
def text? (q : Quoted) : Option String :=
  if q.sound && q.high.isNone then Utf8.decode? q.done.reverse else none

end Quoted

mutual

/-- The tokens of bytes after a word that may have begun, given in reverse. -/
def tokensAfter (word : Bytes) : Bytes → Option (List Token)
  | [] => wordTokens? word
  | b :: rest =>
    if isWordByte b then tokensAfter (b :: word) rest
    else
      match wordTokens? word with
      | none => none
      | some ts =>
        match Char.ofUInt8 b with
        | ' ' | '\n' | '\r' | '\t' => (tokensAfter [] rest).map (ts ++ ·)
        | '\x7b' => (tokensAfter [] rest).map (ts ++ .openBrace :: ·)
        | '\x7d' => (tokensAfter [] rest).map (ts ++ .closeBrace :: ·)
        | '[' => (tokensAfter [] rest).map (ts ++ .openBracket :: ·)
        | ']' => (tokensAfter [] rest).map (ts ++ .closeBracket :: ·)
        | ',' => (tokensAfter [] rest).map (ts ++ .comma :: ·)
        | ':' => (tokensAfter [] rest).map (ts ++ .colon :: ·)
        | '"' => (tokensQuoted {} rest).map (ts ++ ·)
        | _ => none

/-- The tokens of bytes inside quotes. Control characters must be escaped. -/
def tokensQuoted (q : Quoted) : Bytes → Option (List Token)
  | [] => none
  | 0x22 :: rest => (tokensAfter [] rest).map (.text q.text? :: ·)
  | 0x5C :: 0x75 :: a :: b :: c :: d :: rest =>
    match hexFour? a b c d with
    | none => none
    | some n => tokensQuoted (q.addUnit n) rest
  | 0x5C :: e :: rest =>
    match shortEscape? e with
    | none => none
    | some b => tokensQuoted (q.addByte b) rest
  | b :: rest => if b < 0x20 then none else tokensQuoted (q.addByte b) rest

end

/-- The tokens of JSON text, if each of them is well formed. -/
def tokens? (bs : Bytes) : Option (List Token) :=
  tokensAfter [] bs

end ChainIndex.Json
