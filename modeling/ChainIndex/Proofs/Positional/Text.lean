import ChainIndex.Proofs.Positional
import ChainIndex.Proofs.Text.Cut
import ChainIndex.Settlement.Outcome
import ChainIndex.Token.Metadata
import ChainIndex.Token.Record

/-!
# Texts by position

A text that is too long is cut in front of a byte with which a character begins, and such a byte is
never far. A nonce is written from its first byte that is not zero on, and the attributes of an item
and the data of a result fall into at least as many parts as are read.

Going back from a position could run out of positions. It does not, as it ends at the latest where
the library cuts: characters end there (`charsOfSize?_cutChars`), and between there and the limit
none does (`le_utf8Len_cutChars`).
-/

namespace ChainIndex.Positional

open Text (cutChars cutChars_of_le utf8Len_cutChars_le)

/-! ### Cutting -/

/-- The first characters of a text that take a number of bytes, if characters end there. -/
def charsOfSize? : List Char → Nat → Option (List Char)
  | _, 0 => some []
  | [], _ + 1 => none
  | c :: cs, size + 1 =>
    if c.utf8Size ≤ size + 1 then (charsOfSize? cs (size + 1 - c.utf8Size)).map (c :: ·) else none

/-- The last position up to one at which a character ends, found by going back byte by byte. -/
def lastBoundary (cs : List Char) (stop : Nat) : Except Misread Nat := do
  if (charsOfSize? cs stop).isSome then return stop
  match stop with
  | 0 => throw .overflow
  | stop + 1 => lastBoundary cs stop

/-- The first characters of a text that take a number of bytes. -/
def charsOfSize (cs : List Char) (size : Nat) : Except Misread (List Char) :=
  match charsOfSize? cs size with
  | some front => .ok front
  | none => .error .missing

/-- The longest front part of a text that takes at most `limit` bytes. -/
def cut (limit : Nat) (s : String) : Except Misread String := do
  if s.utf8ByteSize ≤ limit then return s
  let stop ← lastBoundary s.toList limit
  let front ← charsOfSize s.toList stop
  return String.ofList front

/-- Characters end where the text is cut. -/
theorem charsOfSize?_cutChars (limit : Nat) (cs : List Char) :
    charsOfSize? cs (String.utf8Len (cutChars limit cs)) = some (cutChars limit cs) := by
  induction cs generalizing limit with
  | nil => rfl
  | cons c cs ih =>
      rw [cutChars]
      split
      · have hpos := c.utf8Size_pos
        obtain ⟨size, hsize⟩ :
            ∃ size, String.utf8Len (cutChars (limit - c.utf8Size) cs) + c.utf8Size = size + 1 :=
          ⟨_, (Nat.sub_add_cancel (by omega)).symm⟩
        rw [String.utf8Len_cons, hsize, charsOfSize?, if_pos (by omega), ← hsize,
          Nat.add_sub_cancel, ih]
        rfl
      · rfl

/-- No character that fits ends behind the cut. The induction goes along the characters, and the
limit shrinks with the size that is looked for. -/
theorem le_utf8Len_cutChars {limit size : Nat} {cs : List Char} (hsize : size ≤ limit)
    (h : (charsOfSize? cs size).isSome) : size ≤ String.utf8Len (cutChars limit cs) := by
  induction cs generalizing limit size with
  | nil =>
      cases size with
      | zero => exact Nat.zero_le _
      | succ size => exact absurd h (by simp [charsOfSize?])
  | cons c cs ih =>
      cases size with
      | zero => exact Nat.zero_le _
      | succ size =>
          rw [charsOfSize?] at h
          split at h
          · next hc =>
            rw [Option.isSome_map] at h
            have : size + 1 - c.utf8Size ≤ String.utf8Len (cutChars (limit - c.utf8Size) cs) :=
              ih (by omega) h
            rw [cutChars, if_pos (by omega), String.utf8Len_cons]
            omega
          · exact absurd h (by simp)

/-- Going back finds the boundary behind which there is no other. -/
theorem lastBoundary_eq {cs : List Char} {k stop : Nat} (hk : (charsOfSize? cs k).isSome)
    (hle : k ≤ stop) (hlast : ∀ m ≤ stop, (charsOfSize? cs m).isSome → m ≤ k) :
    lastBoundary cs stop = .ok k := by
  induction stop with
  | zero =>
      obtain rfl := Nat.le_zero.mp hle
      rw [lastBoundary, if_pos hk]
      rfl
  | succ stop ih =>
      rw [lastBoundary]
      split
      · next h => exact congrArg Except.ok (Nat.le_antisymm (hlast _ (Nat.le_refl _) h) hle)
      · next h =>
        have hne : k ≠ stop + 1 := by
          rintro rfl
          exact h hk
        exact ih (by omega) fun m hm => hlast m (Nat.le_succ_of_le hm)

theorem cut_eq (limit : Nat) (s : String) : cut limit s = .ok (Text.cut limit s) := by
  rw [cut, Text.cut, Text.utf8ByteSize_eq_utf8Len]
  split
  · next h => rw [cutChars_of_le h, String.ofList_toList, pure_eq_ok]
  · have hchars := charsOfSize?_cutChars limit s.toList
    rw [lastBoundary_eq (Option.isSome_of_eq_some hchars) (utf8Len_cutChars_le limit _)
        fun _ hm => le_utf8Len_cutChars hm,
      ok_bind, charsOfSize, hchars, ok_bind, pure_eq_ok]

/-! ### Identifiers -/

/-- The big-endian form of a number in as many bytes as a size says. -/
def bigEndian : Nat → Nat → Bytes
  | 0, _ => []
  | size + 1, n => bigEndian size (n / 256) ++ [UInt8.ofNat n]

/-- What is left without the zeros in front is the shortest form. -/
theorem dropWhile_bigEndian {size n : Nat} (h : n < 256 ^ size) :
    (bigEndian size n).dropWhile (· == 0) = Bytes.ofNat n := by
  induction size generalizing n with
  | zero =>
      obtain rfl : n = 0 := by omega
      rw [Bytes.ofNat, if_pos rfl]
      rfl
  | succ size ih =>
      rw [Nat.pow_succ] at h
      rw [bigEndian, List.dropWhile_append, ih (Nat.div_lt_of_lt_mul (Nat.mul_comm _ _ ▸ h))]
      conv_rhs => rw [Bytes.ofNat]
      by_cases hn : n < 256
      · -- the last byte is the only one that may not be zero
        rw [Nat.div_eq_of_lt hn, Bytes.ofNat, if_pos rfl]
        by_cases hzero : n = 0
        · subst hzero
          rfl
        · have hbyte : UInt8.ofNat n ≠ 0 := fun heq => hzero <| by
            have := congrArg UInt8.toNat heq
            rwa [UInt8.toNat_ofNat', Nat.mod_eq_of_lt hn] at this
          simp [hzero, hbyte]
      · have hne : Bytes.ofNat (n / 256) ≠ [] := by
          rw [Bytes.ofNat, if_neg (by omega)]
          simp
        rw [if_neg (mt List.isEmpty_iff.mp hne), if_neg (by omega)]

/-- The bytes of a nonce from the first one on that is not zero. -/
def nonceBytes (nonce : UInt64) : Except Misread Bytes :=
  let bytes := bigEndian 8 nonce.toNat
  back bytes (bytes.findIdx (· != 0))

@[simp]
theorem nonceBytes_eq (nonce : UInt64) : nonceBytes nonce = .ok (Bytes.ofNat nonce.toNat) := by
  have hshortest : (bigEndian 8 nonce.toNat).dropWhile (· == 0) = Bytes.ofNat nonce.toNat :=
    dropWhile_bigEndian nonce.toNat_lt
  rw [nonceBytes, back_of_le List.findIdx_le_length, ← hshortest,
    List.dropWhile_eq_drop_findIdx_not]
  rfl

/-- A nonce in hexadecimal, at least one byte of it. -/
def nonceText (nonce : UInt64) : Except Misread String := do
  if nonce = 0 then return "00"
  return Hex.encode (← nonceBytes nonce)

theorem nonceText_eq (nonce : UInt64) : nonceText nonce = .ok (ChainIndex.nonceText nonce) := by
  rw [nonceText, nonceBytes_eq, ok_bind, ChainIndex.nonceText]
  split <;> rfl

/-- The identifier of the item of a collection, or of the collection itself for nonce zero. -/
def tokenIdentifier (collection : String) (nonce : UInt64) : Except Misread String := do
  if nonce = 0 then return collection
  return collection ++ "-" ++ Hex.encode (← nonceBytes nonce)

@[simp]
theorem tokenIdentifier_eq (collection : String) (nonce : UInt64) :
    tokenIdentifier collection nonce = .ok (ChainIndex.tokenIdentifier collection nonce) := by
  rw [tokenIdentifier, nonceBytes_eq, ok_bind, ChainIndex.tokenIdentifier]
  split <;> rfl

/-! ### Parts -/

/-- The values that a segment of attributes lists for a key. -/
def segmentValues? (key : String) (segment : List Char) :
    Except Misread (Option (List String)) := do
  let parts := segment.splitOn ':'
  if parts.length < 2 then return none
  let name ← get parts 0
  if name ≠ key.toList then return none
  let values ← get parts 1
  return some (((values.splitOn ',').filter (!·.isEmpty)).map String.ofList)

theorem segmentValues?_eq (key : String) (segment : List Char) :
    segmentValues? key segment = .ok (ChainIndex.segmentValues? key segment) := by
  unfold segmentValues? ChainIndex.segmentValues?
  dsimp only
  match segment.splitOn ':' with
  | [] => rfl
  | [_] => rfl
  | name :: values :: rest => by_cases h : name = key.toList <;> simp [h]

/-- The values of a key in attributes. -/
def attributeValues (key : String) (attributes : Bytes) : Except Misread (List String) := do
  let segments := (Utf8.lenient attributes).toList.splitOn ';'
  let values ← segments.findSomeM? (segmentValues? key)
  return values.getD []

theorem attributeValues_eq (key : String) (attributes : Bytes) :
    attributeValues key attributes = .ok (ChainIndex.attributeValues key attributes) := by
  rw [attributeValues, findSomeM?_eq_ok fun segment _ => segmentValues?_eq key segment]
  rfl

/-- The link to further metadata in attributes, or the empty text. -/
def attributeLink (attributes : Bytes) : Except Misread String := do
  match ← attributeValues "metadata" attributes with
  | [] => return ""
  | link :: _ => cut Text.maxFieldBytes link

theorem attributeLink_eq (attributes : Bytes) :
    attributeLink attributes = .ok (ChainIndex.attributeLink attributes) := by
  rw [attributeLink, attributeValues_eq, ok_bind, ChainIndex.attributeLink]
  cases ChainIndex.attributeValues "metadata" attributes with
  | nil => rfl
  | cons link _ => exact cut_eq _ link

/-- The metadata that a node reports, as the index shows it. -/
def metadataOf (raw : RawMetadata) : Except Misread TokenMetadata := do
  let tags ← attributeValues "tags" raw.attributes
  let link ← attributeLink raw.attributes
  return { TokenMetadata.ofRaw raw with tags := tags.map Text.lowercase, link }

theorem metadataOf_eq (raw : RawMetadata) : metadataOf raw = .ok (.ofRaw raw) := by
  rw [metadataOf, attributeValues_eq, ok_bind, attributeLink_eq, ok_bind]
  rfl

/-- Whether data calls a transfer of items with at least `count` parts, the function included. -/
def isNftTransferData (count : Nat) (data : Bytes) : Except Misread Bool := do
  let parts := dataParts data
  let function ← get parts 0
  return decide (count ≤ parts.length) && isNftTransferName function

theorem isNftTransferData_eq (count : Nat) (data : Bytes) :
    isNftTransferData count data = .ok (ChainIndex.isNftTransferData count data) := by
  -- there is always a first part
  obtain ⟨function, parts, hparts⟩ : ∃ function parts, dataParts data = function :: parts :=
    List.exists_cons_of_ne_nil (mt List.map_eq_nil_iff.mp (List.splitOn_ne_nil _ _))
  rw [isNftTransferData, ChainIndex.isNftTransferData, hparts]
  rfl

end ChainIndex.Positional
