import ChainIndex.Proofs.Text.Utf8
import ChainIndex.Text.Hex
import ChainIndex.Token.Record

/-!
# Hexadecimal text says what it stands for

Different byte strings have different texts (`Hex.encode_injective`), without any dash. So the text
of a nonce tells the nonce, wherever a dash goes before it (`nonceText_injective`). A text that can
be read has two characters for each byte (`Hex.length_of_decodeText`), and the text of a byte string
is read as that byte string (`Hex.decodeText_encode`).

Identifiers of the index are texts put together with dashes, and some of the texts may have dashes
themselves. They can be taken apart from behind: the last piece is hexadecimal, so the last dash is
the one in front of it (`eq_of_append_dash`). Most of what is said of identifiers rests on this.
-/

namespace ChainIndex

/-! ### Writing -/

namespace Hex

theorem digit_mod (n : Nat) : digit (n % 16) = digit n := by
  rw [digit, digit, Nat.mod_mod]

theorem eq_of_digit_eq : ∀ a < 16, ∀ b < 16, digit a = digit b → a = b := by
  decide

theorem forall_digit {P : Char → Prop} (h : ∀ m < 16, P (digit m)) (n : Nat) : P (digit n) := by
  rw [← digit_mod]
  exact h (n % 16) (Nat.mod_lt n (by decide))

theorem byteDigits_injective {a b : UInt8} (h : byteDigits a = byteDigits b) : a = b := by
  simp only [byteDigits, List.cons.injEq, and_true] at h
  obtain ⟨hhigh, hlow⟩ := h
  have ha := a.toNat_lt
  have hb := b.toNat_lt
  have hhigh := eq_of_digit_eq _ (by omega) _ (by omega) hhigh
  rw [← digit_mod, ← digit_mod b.toNat] at hlow
  have hlow := eq_of_digit_eq _ (by omega) _ (by omega) hlow
  exact UInt8.toNat.inj (by omega)

theorem encodeChars_injective {as bs : Bytes} (h : encodeChars as = encodeChars bs) : as = bs := by
  induction as generalizing bs with
  | nil =>
      cases bs with
      | nil => rfl
      | cons b rest => exact absurd h (by simp [encodeChars, byteDigits])
  | cons a rest ih =>
      cases bs with
      | nil => exact absurd h (by simp [encodeChars, byteDigits])
      | cons b rest' =>
          rw [encodeChars, encodeChars, List.flatMap_cons, List.flatMap_cons] at h
          obtain ⟨hhead, htail⟩ := List.append_inj h rfl
          rw [byteDigits_injective hhead, ih htail]

/-- Different byte strings have different texts. -/
theorem encode_injective {as bs : Bytes} (h : encode as = encode bs) : as = bs :=
  encodeChars_injective (String.ofList_injective h)

/-- What holds of all digits holds of the characters of a text. -/
theorem forall_mem_encode {P : Char → Prop} (h : ∀ m < 16, P (digit m)) (bs : Bytes) :
    ∀ c ∈ (encode bs).toList, P c := by
  intro c hc
  rw [encode, String.toList_ofList, encodeChars, List.mem_flatMap] at hc
  obtain ⟨b, -, hb⟩ := hc
  simp only [byteDigits, List.mem_cons, List.not_mem_nil, or_false] at hb
  rcases hb with rfl | rfl
  · exact forall_digit h _
  · exact forall_digit h _

/-- A character that is no digit is not in any text. -/
theorem not_mem_encode {c : Char} (hc : ∀ m < 16, digit m ≠ c) (bs : Bytes) :
    c ∉ (encode bs).toList := by
  have hne : ∀ d ∈ (encode bs).toList, d ≠ c := forall_mem_encode hc bs
  exact fun hmem => hne c hmem rfl

theorem dash_not_mem_encode (bs : Bytes) : '-' ∉ (encode bs).toList :=
  not_mem_encode (by decide) bs

end Hex

theorem ofNat_injective {m n : Nat} (h : Bytes.ofNat m = Bytes.ofNat n) : m = n := by
  rw [← Bytes.toNat_ofNat m, h, Bytes.toNat_ofNat]

/-- A nonce that is not zero never looks like zero. -/
theorem encode_ofNat_ne_zero_text (n : Nat) : Hex.encode (Bytes.ofNat n) ≠ "00" := by
  intro h
  have hzero : Bytes.ofNat n = [0] := Hex.encode_injective (h.trans (by decide))
  exact Bytes.ofNat_head_ne_zero n (by rw [hzero]; rfl)

/-- Different nonces have different texts. -/
theorem nonceText_injective {a b : UInt64} (h : nonceText a = nonceText b) : a = b := by
  -- zero is written as a byte of its own, and no other nonce begins with an empty byte
  unfold nonceText at h
  by_cases ha : a = 0
  · by_cases hb : b = 0
    · rw [ha, hb]
    · rw [if_pos ha, if_neg hb] at h
      exact absurd h.symm (encode_ofNat_ne_zero_text _)
  · by_cases hb : b = 0
    · rw [if_neg ha, if_pos hb] at h
      exact absurd h (encode_ofNat_ne_zero_text _)
    · rw [if_neg ha, if_neg hb] at h
      exact UInt64.toNat.inj (ofNat_injective (Hex.encode_injective h))

theorem dash_not_mem_nonceText (nonce : UInt64) : '-' ∉ (nonceText nonce).toList := by
  unfold nonceText
  split
  · decide
  · exact Hex.dash_not_mem_encode _

/-- Where texts without a dash stand behind the last dash, both sides of it can be told. -/
theorem eq_of_append_dash {xs ys ts us : List Char} (ht : '-' ∉ ts) (hu : '-' ∉ us)
    (h : xs ++ '-' :: ts = ys ++ '-' :: us) : xs = ys ∧ ts = us := by
  -- were one front part longer, its dash would stand in the text behind the other one
  rcases List.append_eq_append_iff.mp h with ⟨as, rfl, has⟩ | ⟨as, rfl, has⟩
  · cases as with
    | nil => simpa using has
    | cons a as =>
        obtain ⟨-, rfl⟩ := List.cons.inj has
        exact absurd (List.mem_append_right as List.mem_cons_self) ht
  · cases as with
    | nil => simpa [eq_comm] using has
    | cons a as =>
        obtain ⟨-, rfl⟩ := List.cons.inj has
        exact absurd (List.mem_append_right as List.mem_cons_self) hu

/-! ### Reading -/

/-- Bytes below 128 are one character each. -/
theorem Utf8.length_encodeChars_of_ascii {cs : List Char}
    (h : ∀ b ∈ Utf8.encodeChars cs, b < 128) : (Utf8.encodeChars cs).length = cs.length := by
  -- of a longer character the last byte is too large
  have hlong : ∀ n : Nat, ¬ UInt8.ofNat (0x80 + n % 0x40) < 128 := by
    intro n hlt
    have hlt := UInt8.lt_iff_toNat_lt.mp hlt
    rw [UInt8.toNat_ofNat'] at hlt
    have : (128 : UInt8).toNat = 128 := rfl
    omega
  induction cs with
  | nil => rfl
  | cons c rest ih =>
      rw [encodeChars, List.flatMap_cons] at h ⊢
      rw [List.forall_mem_append] at h
      obtain ⟨hc, hrest⟩ := h
      have hone : (encodeChar c).length = 1 := by
        unfold encodeChar at hc ⊢
        dsimp only at hc ⊢
        split at hc
        · next hlt => rw [if_pos hlt]; rfl
        · split at hc
          · exact absurd (hc _ (by simp)) (hlong c.toNat)
          · split at hc
            · exact absurd (hc _ (by simp)) (hlong c.toNat)
            · exact absurd (hc _ (by simp)) (hlong c.toNat)
      rw [List.length_append, hone, List.length_cons, Nat.add_comm]
      exact congrArg (· + 1) (ih hrest)

namespace Hex

theorem lt_of_value?_eq_some {b : UInt8} {v : Nat} (h : value? b = some v) : b < 128 := by
  rw [UInt8.lt_iff_toNat_lt]
  show b.toNat < 128
  unfold value? at h
  dsimp only at h
  split at h
  · omega
  · split at h
    · omega
    · split at h
      · omega
      · cases h

/-- Digits that can be read are two for each byte, all of them below 128. -/
theorem length_of_decodeFrom {position : Nat} {text bs : Bytes}
    (h : decodeFrom position text = .ok bs) :
    text.length = 2 * bs.length ∧ ∀ b ∈ text, b < 128 := by
  induction position, text using decodeFrom.induct generalizing bs with
  | case1 position =>
      rw [decodeFrom] at h
      cases h
      simp
  | case2 position b => cases h
  | case3 position a b rest ha =>
      rw [decodeFrom, ha] at h
      cases h
  | case4 position a b rest high hb ha =>
      rw [decodeFrom, ha, hb] at h
      cases h
  | case5 position a b rest low high hb ha ih =>
      rw [decodeFrom, ha, hb] at h
      dsimp only at h
      cases hrest : decodeFrom (position + 2) rest with
      | error fault =>
          rw [hrest] at h
          cases h
      | ok bytes =>
          rw [hrest] at h
          cases h
          obtain ⟨hlen, hascii⟩ := ih hrest
          refine ⟨by simp only [List.length_cons, hlen]; omega, ?_⟩
          rw [List.forall_mem_cons, List.forall_mem_cons]
          exact ⟨lt_of_value?_eq_some ha, lt_of_value?_eq_some hb, hascii⟩

/-- A text that can be read has two characters for each byte. -/
theorem length_of_decodeText {s : String} {bs : Bytes} (h : decodeText s = .ok bs) :
    s.toList.length = 2 * bs.length := by
  rw [decodeText, decode] at h
  split at h
  · cases h
  · obtain ⟨hlen, hascii⟩ := length_of_decodeFrom h
    rw [← hlen, Utf8.encode, Utf8.length_encodeChars_of_ascii hascii]

theorem digit_toNat_lt (n : Nat) : (digit n).toNat < 0x80 := by
  have hlt : ∀ m < 16, (digit m).toNat < 0x80 := by decide
  rw [← digit_mod]
  exact hlt (n % 16) (Nat.mod_lt n (by decide))

/-- A digit is read as its value. -/
theorem value?_digit (n : Nat) : value? (UInt8.ofNat (digit n).toNat) = some (n % 16) := by
  have hlt : ∀ m < 16, value? (UInt8.ofNat (digit m).toNat) = some m := by decide
  rw [← digit_mod]
  exact hlt (n % 16) (Nat.mod_lt n (by decide))

theorem encodeChars_byteDigits (b : UInt8) : Utf8.encodeChars (byteDigits b) =
    [UInt8.ofNat (digit (b.toNat / 16)).toNat, UInt8.ofNat (digit b.toNat).toNat] := by
  apply Utf8.encodeChars_of_ascii
  rw [byteDigits, List.forall_mem_cons, List.forall_mem_singleton]
  exact ⟨digit_toNat_lt _, digit_toNat_lt _⟩

theorem decodeFrom_encodeChars (position : Nat) (bs : Bytes) :
    decodeFrom position (Utf8.encodeChars (encodeChars bs)) = .ok bs := by
  induction bs generalizing position with
  | nil => rfl
  | cons b rest ih =>
      have hb := b.toNat_lt
      have hbyte : 16 * (b.toNat / 16 % 16) + b.toNat % 16 = b.toNat := by omega
      rw [encodeChars, List.flatMap_cons, Utf8.encodeChars_append, encodeChars_byteDigits]
      simp only [List.cons_append, List.nil_append, decodeFrom, value?_digit, hbyte,
        UInt8.ofNat_toNat]
      rw [← encodeChars, ih]
      rfl

/-- The text of a byte string is read as that byte string. -/
theorem decodeText_encode (bs : Bytes) : decodeText (encode bs) = .ok bs := by
  have hdecode := decodeFrom_encodeChars 0 bs
  have heven := (length_of_decodeFrom hdecode).1
  rw [decodeText, decode, Utf8.encode, encode, String.toList_ofList, if_neg (by omega), hdecode]

end Hex

end ChainIndex
