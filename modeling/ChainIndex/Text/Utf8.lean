import ChainIndex.Bytes

/-!
# Text as UTF-8 bytes

Text is a `String`; its wire form is UTF-8. Reading goes one byte at a time: a lead byte says how
many continuation bytes are owed and in which range the next of them lies, which keeps overlong
forms, surrogates and numbers past the last code point out. A run of bytes that cannot become a
character is one malformed piece, cut at the first byte that rules the character out. The strict
reading refuses malformed pieces, the lenient one shows each as U+FFFD.
-/

namespace ChainIndex.Utf8

/-- The bytes of one character. -/
def encodeChar (c : Char) : Bytes :=
  let n := c.toNat
  if n < 0x80 then
    [UInt8.ofNat n]
  else if n < 0x800 then
    [UInt8.ofNat (0xC0 + n / 0x40), UInt8.ofNat (0x80 + n % 0x40)]
  else if n < 0x10000 then
    [UInt8.ofNat (0xE0 + n / 0x1000), UInt8.ofNat (0x80 + n / 0x40 % 0x40),
      UInt8.ofNat (0x80 + n % 0x40)]
  else
    [UInt8.ofNat (0xF0 + n / 0x40000), UInt8.ofNat (0x80 + n / 0x1000 % 0x40),
      UInt8.ofNat (0x80 + n / 0x40 % 0x40), UInt8.ofNat (0x80 + n % 0x40)]

/-- The bytes of a list of characters. -/
def encodeChars (cs : List Char) : Bytes :=
  cs.flatMap encodeChar

/-- The bytes of a text. -/
def encode (s : String) : Bytes :=
  encodeChars s.toList

/-- A character that has begun: the next byte lies between `low` and `high`, `more` continuation
bytes follow that one, and the bits read so far are `value`. -/
structure Begun where
  more : Nat
  low : UInt8
  high : UInt8
  value : Nat
deriving Repr, DecidableEq

/-- What a byte means where a character may start. -/
inductive Lead where
  /-- The whole of an ASCII character. -/
  | whole (c : Char)
  /-- The first byte of a longer character. -/
  | begins (b : Begun)
  /-- No character starts so. -/
  | stray
deriving Repr, DecidableEq

/-- The meaning of a byte where a character may start. -/
def lead (b : UInt8) : Lead :=
  let n := b.toNat
  if n < 0x80 then .whole (Char.ofNat n)
  else if n < 0xC2 then .stray
  else if n < 0xE0 then .begins ⟨0, 0x80, 0xBF, n - 0xC0⟩
  else if n < 0xF0 then
    .begins ⟨1, if n = 0xE0 then 0xA0 else 0x80, if n = 0xED then 0x9F else 0xBF, n - 0xE0⟩
  else if n < 0xF5 then
    .begins ⟨2, if n = 0xF0 then 0x90 else 0x80, if n = 0xF4 then 0x8F else 0xBF, n - 0xF0⟩
  else .stray

/-- One byte where a character may start: the pieces that it completes, and what has begun. -/
def start (b : UInt8) : List (Option Char) × Option Begun :=
  match lead b with
  | .whole c => ([some c], none)
  | .begins p => ([], some p)
  | .stray => ([none], none)

/-- One byte: the pieces that it completes, and the character that has begun after it. A byte
that does not continue the begun character ends a malformed piece and starts afresh. -/
def step (pending : Option Begun) (b : UInt8) : List (Option Char) × Option Begun :=
  match pending with
  | none => start b
  | some p =>
    if p.low ≤ b ∧ b ≤ p.high then
      let value := p.value * 0x40 + (b.toNat - 0x80)
      match p.more with
      | 0 => ([some (Char.ofNat value)], none)
      | more + 1 => ([], some ⟨more, 0x80, 0xBF, value⟩)
    else
      let (out, next) := start b
      (none :: out, next)

/-- The pieces of a byte string after a character that may have begun. -/
def piecesFrom (pending : Option Begun) : Bytes → List (Option Char)
  | [] => if pending.isSome then [none] else []
  | b :: rest => (step pending b).1 ++ piecesFrom (step pending b).2 rest

/-- The characters of a byte string in order, with `none` for each malformed piece. -/
def pieces (bs : Bytes) : List (Option Char) :=
  piecesFrom none bs

/-- The characters of a byte string that is UTF-8 throughout. -/
def decodeChars? (bs : Bytes) : Option (List Char) :=
  (pieces bs).mapM id

/-- The text of a byte string that is UTF-8 throughout. -/
def decode? (bs : Bytes) : Option String :=
  (decodeChars? bs).map String.ofList

/-- The text of any byte string, each malformed piece shown as the replacement character. -/
def lenient (bs : Bytes) : String :=
  String.ofList ((pieces bs).map (·.getD '\uFFFD'))

end ChainIndex.Utf8

/-! ### Cutting text to a size

The search engine limits the bytes of a field and of an identifier. Text that is too long is cut
in front of the first character that no longer fits, so what is left is text. -/

namespace ChainIndex.Text

/-- The longest list of first characters that takes at most `limit` bytes. -/
def cutChars (limit : Nat) : List Char → List Char
  | [] => []
  | c :: rest =>
    if c.utf8Size ≤ limit then c :: cutChars (limit - c.utf8Size) rest else []

/-- The longest front part of a text that takes at most `limit` bytes. -/
def cut (limit : Nat) (s : String) : String :=
  String.ofList (cutChars limit s.toList)

/-- The most bytes that a field may take. -/
def maxFieldBytes : Nat := 32766

/-- The most bytes that a document identifier may take. -/
def maxIdBytes : Nat := 512

/-- A text cut to the size of a field. -/
def cutField (s : String) : String :=
  cut maxFieldBytes s

end ChainIndex.Text
