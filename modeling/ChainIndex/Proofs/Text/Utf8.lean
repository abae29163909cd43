import ChainIndex.Proofs.Text.Cut
import ChainIndex.Text.Utf8

/-!
# UTF-8 text says what it stands for

The bytes of a character complete that character and leave nothing begun, whatever comes behind
them (`Utf8.piecesFrom_encodeChar`). So reading the bytes of a text gives the text
(`Utf8.decode?_encode`), also where reading is lenient (`Utf8.lenient_encode`).

Reading is a loop over bytes that remembers what has begun. The lemma about one character is stated
for any bytes behind it, with nothing begun before and nothing left begun after, so that a text is
an induction over its characters. What the lead bytes begin is a table, and it is tried as one: for
each length the numbers that can stand in a lead byte are few.
-/

namespace ChainIndex

/-- A list whose elements are read back one by one is read back. -/
theorem mapM_map_eq_some {α β : Type} (write : α → β) (read : β → Option α)
    (h : ∀ a, read (write a) = some a) (as : List α) : (as.map write).mapM read = some as := by
  induction as with
  | nil => rfl
  | cons a rest ih => rw [List.map_cons, List.mapM_cons, h, ih]; rfl

namespace Utf8

/-! ### Lead bytes -/

theorem lead_whole : ∀ n < 0x80, lead (UInt8.ofNat n) = .whole (Char.ofNat n) := by
  decide

theorem lead_two : ∀ n < 0x20, 2 ≤ n →
    lead (UInt8.ofNat (0xC0 + n)) = .begins ⟨0, 0x80, 0xBF, n⟩ := by
  decide

theorem lead_three : ∀ n < 0x10, lead (UInt8.ofNat (0xE0 + n)) =
    .begins ⟨1, if n = 0 then 0xA0 else 0x80, if n = 13 then 0x9F else 0xBF, n⟩ := by
  decide

theorem lead_four : ∀ n < 5, lead (UInt8.ofNat (0xF0 + n)) =
    .begins ⟨2, if n = 0 then 0x90 else 0x80, if n = 4 then 0x8F else 0xBF, n⟩ := by
  decide

/-! ### Reading one byte -/

theorem piecesFrom_of_whole {b : UInt8} {c : Char} (h : lead b = .whole c) (rest : Bytes) :
    piecesFrom none (b :: rest) = some c :: piecesFrom none rest := by
  simp [piecesFrom, step, start, h]

theorem piecesFrom_of_begins {b : UInt8} {p : Begun} (h : lead b = .begins p) (rest : Bytes) :
    piecesFrom none (b :: rest) = piecesFrom (some p) rest := by
  simp [piecesFrom, step, start, h]

/-- A continuation byte in its range adds six bits. -/
theorem step_continuation {p : Begun} {n : Nat} (hn : n < 0x40) (hlow : p.low.toNat ≤ 0x80 + n)
    (hhigh : 0x80 + n ≤ p.high.toNat) :
    step (some p) (UInt8.ofNat (0x80 + n)) =
      match p.more with
      | 0 => ([some (Char.ofNat (p.value * 0x40 + n))], none)
      | more + 1 => ([], some ⟨more, 0x80, 0xBF, p.value * 0x40 + n⟩) := by
  have hbyte : (UInt8.ofNat (0x80 + n)).toNat = 0x80 + n :=
    UInt8.toNat_ofNat_of_lt' (show 0x80 + n < 256 by omega)
  have hrange : p.low ≤ UInt8.ofNat (0x80 + n) ∧ UInt8.ofNat (0x80 + n) ≤ p.high := by
    rw [UInt8.le_iff_toNat_le, UInt8.le_iff_toNat_le, hbyte]
    exact ⟨hlow, hhigh⟩
  have hvalue : (UInt8.ofNat (0x80 + n)).toNat - 0x80 = n := by
    rw [hbyte, Nat.add_sub_cancel_left]
  have hstep : step (some p) (UInt8.ofNat (0x80 + n)) = _ := if_pos hrange
  rw [hvalue] at hstep
  exact hstep

/-- The last byte of a character completes it. Only the first byte behind the lead has bounds of its
own, which rule out overlong forms and surrogates. -/
theorem piecesFrom_last {low high : UInt8} {value n : Nat} (hn : n < 0x40)
    (hlow : low.toNat ≤ 0x80 + n) (hhigh : 0x80 + n ≤ high.toNat) (rest : Bytes) :
    piecesFrom (some ⟨0, low, high, value⟩) (UInt8.ofNat (0x80 + n) :: rest) =
      some (Char.ofNat (value * 0x40 + n)) :: piecesFrom none rest := by
  rw [piecesFrom, step_continuation hn hlow hhigh]
  rfl

theorem piecesFrom_more {more : Nat} {low high : UInt8} {value n : Nat} (hn : n < 0x40)
    (hlow : low.toNat ≤ 0x80 + n) (hhigh : 0x80 + n ≤ high.toNat) (rest : Bytes) :
    piecesFrom (some ⟨more + 1, low, high, value⟩) (UInt8.ofNat (0x80 + n) :: rest) =
      piecesFrom (some ⟨more, 0x80, 0xBF, value * 0x40 + n⟩) rest := by
  rw [piecesFrom, step_continuation hn hlow hhigh]
  rfl

/-! ### Writing a text -/

/-- The code point of a character is no half of a surrogate pair and not past the last one. -/
theorem toNat_valid (c : Char) : c.toNat < 0xD800 ∨ 0xDFFF < c.toNat ∧ c.toNat < 0x110000 :=
  c.valid

/-- A character below 128 is one byte. -/
theorem encodeChar_of_ascii {c : Char} (h : c.toNat < 0x80) :
    encodeChar c = [UInt8.ofNat c.toNat] :=
  if_pos h

/-- Every byte of a longer character is above ASCII. So whatever looks for a sign in bytes, such as
the at sign between arguments or a quote, cannot find it inside of a character. -/
theorem le_of_mem_encodeChar {c : Char} (h : 0x80 ≤ c.toNat) {b : UInt8} (hb : b ∈ encodeChar c) :
    0x80 ≤ b.toNat := by
  have hvalid := toNat_valid c
  have hlarge : ∀ m < 0x80, 0x80 ≤ (UInt8.ofNat (0x80 + m)).toNat := by decide
  have hsum : ∀ m, 0x80 ≤ m → m < 0x100 → 0x80 ≤ (UInt8.ofNat m).toNat := by
    intro m hle hlt
    have hm := hlarge (m - 0x80) (by omega)
    rwa [Nat.add_sub_cancel' hle] at hm
  -- by the length of the character, and then byte by byte
  unfold encodeChar at hb
  dsimp only at hb
  rw [if_neg (by omega)] at hb
  split at hb
  · simp only [List.mem_cons, List.not_mem_nil, or_false] at hb
    rcases hb with rfl | rfl
    · exact hsum _ (by omega) (by omega)
    · exact hsum _ (by omega) (by omega)
  · split at hb
    · simp only [List.mem_cons, List.not_mem_nil, or_false] at hb
      rcases hb with rfl | rfl | rfl
      · exact hsum _ (by omega) (by omega)
      · exact hsum _ (by omega) (by omega)
      · exact hsum _ (by omega) (by omega)
    · simp only [List.mem_cons, List.not_mem_nil, or_false] at hb
      rcases hb with rfl | rfl | rfl | rfl
      · exact hsum _ (by omega) (by omega)
      · exact hsum _ (by omega) (by omega)
      · exact hsum _ (by omega) (by omega)
      · exact hsum _ (by omega) (by omega)

theorem encodeChars_cons (c : Char) (cs : List Char) :
    encodeChars (c :: cs) = encodeChar c ++ encodeChars cs :=
  List.flatMap_cons

theorem encodeChars_append (cs ds : List Char) :
    encodeChars (cs ++ ds) = encodeChars cs ++ encodeChars ds :=
  List.flatMap_append

/-- Between the bytes of a text, a byte below 128 stands for a character. -/
theorem ofNat_mem_of_mem_encodeChars {cs : List Char} {b : UInt8} (hb : b.toNat < 0x80)
    (h : b ∈ encodeChars cs) : Char.ofNat b.toNat ∈ cs := by
  obtain ⟨c, hc, hbc⟩ := List.mem_flatMap.mp h
  by_cases hascii : c.toNat < 0x80
  · rw [encodeChar_of_ascii hascii, List.mem_singleton] at hbc
    have htoNat : b.toNat = c.toNat := by
      rw [hbc]
      exact UInt8.toNat_ofNat_of_lt' (show c.toNat < 256 by omega)
    rwa [htoNat, Char.ofNat_toNat]
  · exact absurd (le_of_mem_encodeChar (Nat.le_of_not_lt hascii) hbc) (Nat.not_le_of_lt hb)

theorem encodeChars_intercalate (separator : Char) (css : List (List Char)) :
    encodeChars ([separator].intercalate css) =
      (encodeChar separator).intercalate (css.map encodeChars) := by
  induction css with
  | nil => rfl
  | cons cs rest ih =>
      cases rest with
      | nil => simp
      | cons ds rest =>
          have hseparator : encodeChars [separator] = encodeChar separator := by
            rw [encodeChars, List.flatMap_singleton]
          rw [List.map_cons, List.map_cons, List.intercalate_cons_cons,
            List.intercalate_cons_cons, encodeChars_append, encodeChars_append, ih, hseparator,
            List.map_cons]

/-- Characters below 128 are one byte each. -/
theorem encodeChars_of_ascii {cs : List Char} (h : ∀ c ∈ cs, c.toNat < 0x80) :
    encodeChars cs = cs.map fun c => UInt8.ofNat c.toNat := by
  induction cs with
  | nil => rfl
  | cons c rest ih =>
      rw [List.forall_mem_cons] at h
      rw [encodeChars_cons, encodeChar_of_ascii h.1, ih h.2, List.map_cons, List.singleton_append]

/-- The bytes of a character are as many as it takes. -/
theorem length_encodeChar (c : Char) : (encodeChar c).length = c.utf8Size := by
  have hsize : c.utf8Size = if c.toNat < 0x80 then 1 else if c.toNat < 0x800 then 2
      else if c.toNat < 0x10000 then 3 else 4 := by
    simp only [Char.utf8Size, UInt32.le_iff_toNat_le, Nat.lt_succ_iff]
    rfl
  rw [hsize, encodeChar]
  split_ifs <;> rfl

theorem length_encode (s : String) : (encode s).length = s.utf8ByteSize := by
  rw [Text.utf8ByteSize_eq_utf8Len, encode]
  induction s.toList with
  | nil => rfl
  | cons c cs ih =>
      rw [encodeChars_cons, List.length_append, ih, length_encodeChar, String.utf8Len_cons,
        Nat.add_comm]

/-! ### Reading a text -/

/-- The bytes of a character are read as that character. -/
theorem piecesFrom_encodeChar (c : Char) (rest : Bytes) :
    piecesFrom none (encodeChar c ++ rest) = some c :: piecesFrom none rest := by
  have hvalid := toNat_valid c
  -- the ends of the ranges that continuation bytes lie in
  have hends : (0x80 : UInt8).toNat = 0x80 ∧ (0x8F : UInt8).toNat = 0x8F ∧
      (0x90 : UInt8).toNat = 0x90 ∧ (0x9F : UInt8).toNat = 0x9F ∧
      (0xA0 : UInt8).toNat = 0xA0 ∧ (0xBF : UInt8).toNat = 0xBF := by decide
  have hchar : ∀ n, n = c.toNat → some (Char.ofNat n) = some c := by
    rintro n rfl
    rw [Char.ofNat_toNat]
  unfold encodeChar
  dsimp only
  split
  · next h1 =>
      rw [List.singleton_append, piecesFrom_of_whole (lead_whole _ h1), hchar _ rfl]
  · next h1 =>
      split
      · next h2 =>
          simp only [List.cons_append, List.nil_append]
          rw [piecesFrom_of_begins (lead_two _ (by omega) (by omega)),
            piecesFrom_last (by omega) (by omega) (by omega), hchar _ (by omega)]
      · next h2 =>
          split
          · next h3 =>
              simp only [List.cons_append, List.nil_append]
              -- the first byte rules out overlong forms and surrogates
              rw [piecesFrom_of_begins (lead_three _ (by omega)),
                piecesFrom_more (by omega) (by split <;> omega) (by split <;> omega),
                piecesFrom_last (by omega) (by omega) (by omega), hchar _ (by omega)]
          · next h3 =>
              simp only [List.cons_append, List.nil_append]
              rw [piecesFrom_of_begins (lead_four _ (by omega)),
                piecesFrom_more (by omega) (by split <;> omega) (by split <;> omega),
                piecesFrom_more (by omega) (by omega) (by omega),
                piecesFrom_last (by omega) (by omega) (by omega), hchar _ (by omega)]

/-- Written characters fall into pieces that are just these characters, and none is broken. -/
theorem pieces_encodeChars (cs : List Char) : pieces (encodeChars cs) = cs.map some := by
  unfold pieces encodeChars
  induction cs with
  | nil => rfl
  | cons c rest ih => rw [List.flatMap_cons, piecesFrom_encodeChar, ih, List.map_cons]

theorem decodeChars?_encodeChars (cs : List Char) : decodeChars? (encodeChars cs) = some cs := by
  rw [decodeChars?, pieces_encodeChars]
  exact mapM_map_eq_some some id (fun _ => rfl) cs

/-- The bytes of a text are read as that text. -/
theorem decode?_encode (s : String) : decode? (encode s) = some s := by
  rw [decode?, encode, decodeChars?_encodeChars, Option.map_some, String.ofList_toList]

/-- The lenient reading has nothing to mend in the bytes of a text. -/
@[simp] theorem lenient_encode (s : String) : lenient (encode s) = s := by
  have hchars : (s.toList.map some).map (·.getD '\uFFFD') = s.toList := by
    rw [List.map_map]
    exact List.map_id s.toList
  rw [lenient, encode, pieces_encodeChars, hchars, String.ofList_toList]

end Utf8

end ChainIndex
