import ChainIndex.Proofs.Positional.Text
import ChainIndex.Proofs.Text.Utf8

/-!
# Cutting between bytes

A text is kept as bytes, up to four for a character, and of a byte one can tell whether a character
begins with it. So a text that is too long is cut where, going back from the last position that
fits, one comes to the first byte of a character. There is such a position, at most three bytes
back, and in front of it is what the library leaves of the text (`cutsTo_cut`).

The library goes forward through the characters and takes those that fit. Both ways meet in the
number of bytes that some first characters take (`charsOfSize?`): no character goes on at a position
if and only if some characters take that many bytes (`isGap_encodeChars`). With that, going back by
bytes is going back by characters, and about the latter all is known.
-/

namespace ChainIndex.Positional

open Text (IsFront cutChars)

/-- Whether a byte goes on with a character that has begun. -/
def continues (b : UInt8) : Bool :=
  0x80 ≤ b && b < 0xC0

/-- Whether no character goes on at a position of a text: one begins there, or the text ends. -/
def isGap (text : Bytes) (i : Nat) : Bool :=
  match text[i]? with
  | some b => !continues b
  | none => i == text.length

/-- Whether a text can be parted at a position. -/
def isBoundary (text : Bytes) (i : Nat) : Bool :=
  i == 0 || isGap text i

/-- The last boundary up to a position, found by going back byte by byte. -/
def lastByteBoundary (text : Bytes) (stop : Nat) : Except Misread Nat := do
  if isBoundary text stop then return stop
  match stop with
  | 0 => throw .overflow
  | stop + 1 => lastByteBoundary text stop

/-- The bytes in front of a boundary. -/
def frontBytes (text : Bytes) (stop : Nat) : Except Misread Bytes :=
  if isBoundary text stop then front text stop else .error .missing

/-- The bytes of the longest front part of a text that takes at most `limit` bytes. -/
def cutBytes (limit : Nat) (text : Bytes) : Except Misread Bytes := do
  if text.length ≤ limit then return text
  let stop ← lastByteBoundary text limit
  frontBytes text stop

/-- A position is the last one up to a limit at which a text can be parted. -/
structure IsLastBoundary (text : Bytes) (limit stop : Nat) : Prop where
  boundary : isBoundary text stop = true
  le_limit : stop ≤ limit
  last : ∀ i ≤ limit, isBoundary text i = true → i ≤ stop

/-- What a text is cut to, and how the place to cut at is found. -/
structure CutsTo (limit : Nat) (s front : String) : Prop where
  /-- A place is found, it is in the text, and the text in front of it is left. -/
  found : cutBytes limit (Utf8.encode s) = .ok (Utf8.encode front)
  place : IsLastBoundary (Utf8.encode s) limit front.utf8ByteSize
  /-- Of a text that is too long, it is found after at most three steps. -/
  near : limit < s.utf8ByteSize → limit < front.utf8ByteSize + 4
  isFront : IsFront limit front s
  whole : s.utf8ByteSize ≤ limit → front = s
  again : Text.cut limit front = front
  /-- A longer cut before it makes no difference. -/
  after : ∀ limit', limit ≤ limit' → Text.cut limit (Text.cut limit' s) = front

/-! ### The bytes of a character -/

/-- A character begins with its first byte and goes on with the others. -/
theorem exists_encodeChar (c : Char) : ∃ b rest, Utf8.encodeChar c = b :: rest ∧
    continues b = false ∧ ∀ d ∈ rest, continues d = true := by
  have hvalid := Utf8.toNat_valid c
  have hsmall : ∀ n < 0x80, continues (UInt8.ofNat n) = false := by decide
  have hlarge : ∀ n < 0x40, continues (UInt8.ofNat (0xC0 + n)) = false := by decide
  have hmore : ∀ n < 0x40, continues (UInt8.ofNat (0x80 + n)) = true := by decide
  have hlead : ∀ n, 0xC0 ≤ n → n < 0x100 → continues (UInt8.ofNat n) = false := by
    intro n hle hlt
    have hn := hlarge (n - 0xC0) (by omega)
    rwa [Nat.add_sub_cancel' hle] at hn
  have hrest : ∀ n, continues (UInt8.ofNat (0x80 + n % 0x40)) = true :=
    fun n => hmore _ (Nat.mod_lt n (by decide))
  unfold Utf8.encodeChar
  dsimp only
  -- one case for each number of bytes; all bytes behind the first are made in the same way
  split
  · next h => exact ⟨_, _, rfl, hsmall _ h, List.forall_mem_nil _⟩
  · split
    · exact ⟨_, _, rfl, hlead _ (by omega) (by omega), List.forall_mem_singleton.mpr (hrest _)⟩
    · split
      · refine ⟨_, _, rfl, hlead _ (by omega) (by omega), ?_⟩
        rw [List.forall_mem_cons, List.forall_mem_singleton]
        exact ⟨hrest _, hrest _⟩
      · refine ⟨_, _, rfl, hlead _ (by omega) (by omega), ?_⟩
        rw [List.forall_mem_cons, List.forall_mem_cons, List.forall_mem_singleton]
        exact ⟨hrest _, hrest _, hrest _⟩

/-! ### Boundaries are where characters end -/

/-- Whether there is a gap behind the first part of a text does not depend on that part. -/
theorem isGap_append {xs : Bytes} {i : Nat} (h : xs.length ≤ i) (ys : Bytes) :
    isGap (xs ++ ys) i = isGap ys (i - xs.length) := by
  have hend : (i == (xs ++ ys).length) = (i - xs.length == ys.length) := by
    rw [List.length_append, Bool.eq_iff_iff, beq_iff_eq, beq_iff_eq]
    omega
  rw [isGap, isGap, List.getElem?_append_right h, hend]

/-- No character ends inside another one. -/
theorem isGap_encodeChar {c : Char} {i : Nat} (hpos : 0 < i) (hlt : i < c.utf8Size)
    (rest : Bytes) : isGap (Utf8.encodeChar c ++ rest) i = false := by
  obtain ⟨b, more, hc, -, hmore⟩ := exists_encodeChar c
  rw [← Utf8.length_encodeChar, hc, List.length_cons] at hlt
  obtain ⟨j, rfl⟩ := Nat.exists_eq_succ_of_ne_zero hpos.ne'
  have hj : j < more.length := Nat.lt_of_succ_lt_succ hlt
  have hcontinues := hmore _ (List.getElem_mem hj)
  simp [isGap, hc, List.getElem?_append_left hj, List.getElem?_eq_getElem hj, hcontinues]

/-- A text begins with a character, if with anything. -/
theorem isGap_encodeChars_zero (cs : List Char) : isGap (Utf8.encodeChars cs) 0 = true := by
  cases cs with
  | nil => rfl
  | cons c cs =>
      obtain ⟨b, rest, hc, hb, -⟩ := exists_encodeChar c
      simp [isGap, Utf8.encodeChars_cons, hc, hb]

/-- No character goes on exactly where some first characters end. -/
theorem isGap_encodeChars (cs : List Char) (i : Nat) :
    isGap (Utf8.encodeChars cs) i = (charsOfSize? cs i).isSome := by
  induction cs generalizing i with
  | nil =>
      cases i with
      | zero => rfl
      | succ i => rfl
  | cons c cs ih =>
      cases i with
      | zero => exact isGap_encodeChars_zero (c :: cs)
      | succ i =>
          rw [charsOfSize?, Utf8.encodeChars_cons]
          -- the position lies behind the first character, or inside it
          by_cases hfits : c.utf8Size ≤ i + 1
          · have hlength : (Utf8.encodeChar c).length ≤ i + 1 := by
              rwa [Utf8.length_encodeChar]
            rw [if_pos hfits, Option.isSome_map, ← ih, isGap_append hlength,
              Utf8.length_encodeChar]
          · rw [if_neg hfits, isGap_encodeChar (Nat.succ_pos i) (Nat.lt_of_not_le hfits)]
            rfl

theorem isBoundary_encodeChars (cs : List Char) (i : Nat) :
    isBoundary (Utf8.encodeChars cs) i = (charsOfSize? cs i).isSome := by
  rw [isBoundary, ← isGap_encodeChars]
  cases i with
  | zero => rw [isGap_encodeChars_zero, Bool.or_true]
  | succ i => rfl

/-- In front of a boundary are the bytes of the characters that end there. -/
theorem take_encodeChars {cs front : List Char} {size : Nat}
    (h : charsOfSize? cs size = some front) :
    (Utf8.encodeChars cs).take size = Utf8.encodeChars front := by
  induction cs generalizing size front with
  | nil =>
      cases size with
      | zero =>
          cases h
          rfl
      | succ size => cases h
  | cons c cs ih =>
      cases size with
      | zero =>
          cases h
          rfl
      | succ size =>
          rw [charsOfSize?] at h
          split at h
          · obtain ⟨front, hfront, rfl⟩ := Option.map_eq_some_iff.mp h
            have hlength : (Utf8.encodeChar c).length ≤ size + 1 := by
              rwa [Utf8.length_encodeChar]
            rw [Utf8.encodeChars_cons, Utf8.encodeChars_cons, List.take_append,
              List.take_of_length_le hlength, Utf8.length_encodeChar, ih hfront]
          · cases h

/-! ### Going back -/

/-- Going back by bytes ends where going back by characters does. -/
theorem lastByteBoundary_encodeChars (cs : List Char) (stop : Nat) :
    lastByteBoundary (Utf8.encodeChars cs) stop = lastBoundary cs stop := by
  induction stop with
  | zero => rw [lastByteBoundary, lastBoundary, isBoundary_encodeChars]
  | succ stop ih => rw [lastByteBoundary, lastBoundary, isBoundary_encodeChars, ih]

theorem utf8ByteSize_cut (limit : Nat) (s : String) :
    (Text.cut limit s).utf8ByteSize = String.utf8Len (cutChars limit s.toList) := by
  rw [Text.cut, String.utf8ByteSize_ofList]

/-- The library cuts at the last boundary. -/
theorem isLastBoundary_cut (limit : Nat) (s : String) :
    IsLastBoundary (Utf8.encode s) limit (Text.cut limit s).utf8ByteSize := by
  rw [Utf8.encode, utf8ByteSize_cut]
  constructor
  · rw [isBoundary_encodeChars, charsOfSize?_cutChars]
    rfl
  · exact Text.utf8Len_cutChars_le limit s.toList
  · intro i hi hboundary
    rw [isBoundary_encodeChars] at hboundary
    exact le_utf8Len_cutChars hi hboundary

theorem lastByteBoundary_encode (limit : Nat) (s : String) :
    lastByteBoundary (Utf8.encode s) limit = .ok (Text.cut limit s).utf8ByteSize := by
  have hchars := charsOfSize?_cutChars limit s.toList
  rw [Utf8.encode, lastByteBoundary_encodeChars, utf8ByteSize_cut]
  exact lastBoundary_eq (Option.isSome_of_eq_some hchars) (Text.utf8Len_cutChars_le limit _)
    fun _ hm => le_utf8Len_cutChars hm

theorem take_encode_cut (limit : Nat) (s : String) :
    (Utf8.encode s).take (Text.cut limit s).utf8ByteSize = Utf8.encode (Text.cut limit s) := by
  rw [utf8ByteSize_cut, Utf8.encode, take_encodeChars (charsOfSize?_cutChars limit s.toList),
    Utf8.encode, Text.cut, String.toList_ofList]

/-- Cutting by bytes goes right, and it leaves the text that the library leaves. -/
theorem cutBytes_encode (limit : Nat) (s : String) :
    cutBytes limit (Utf8.encode s) = .ok (Utf8.encode (Text.cut limit s)) := by
  rw [cutBytes, Utf8.length_encode]
  split
  · next h => rw [Text.cut_eq_self h, pure_eq_ok]
  · next h =>
    have hlast := isLastBoundary_cut limit s
    have hinside : (Text.cut limit s).utf8ByteSize ≤ (Utf8.encode s).length := by
      rw [Utf8.length_encode]
      exact hlast.le_limit.trans (Nat.le_of_not_le h)
    rw [lastByteBoundary_encode, ok_bind, frontBytes, if_pos hlast.boundary,
      front_of_le hinside, take_encode_cut]

/-! ### Main result -/

/-- Whatever a text is cut to, a place to cut at is found, and it is the last one that fits. -/
theorem cutsTo_cut (limit : Nat) (s : String) : CutsTo limit s (Text.cut limit s) where
  found := cutBytes_encode limit s
  place := isLastBoundary_cut limit s
  near := Text.lt_utf8ByteSize_cut
  isFront := Text.isFront_cut limit s
  whole := Text.cut_eq_self
  again := Text.cut_cut (Nat.le_refl limit) s
  after _ hle := Text.cut_cut hle s

example : cutBytes 2 (Utf8.encode "aé") = .ok [0x61] := by decide

end ChainIndex.Positional
