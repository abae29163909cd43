import ChainIndex.Text.Base64
import Mathlib.Data.String.Basic

/-!
# Base64 text says what it stands for

The signs of a byte string are read as that byte string (`Base64.decode?_encode`): a group of three
bytes as three bytes, and the last one or two bytes with their padding.

Writing and reading cut their lists in the same places, so the induction is that of the writer, by
three bytes at a time. What it comes to in each case is arithmetic on at most three bytes, stated
once above; the shorter groups are the full one with zeros for the bytes that are missing. The only
difference is at the end: a full last group is read by another rule than one with more behind it.
-/

namespace ChainIndex.Base64

/-! ### Signs -/

theorem value?_sign : ∀ n < 64, value? (sign n) = some n := by
  decide

theorem sign_ne_padding : ∀ n < 64, sign n ≠ '=' := by
  decide

/-! ### The six bits of each sign -/

section Group

variable (a b c : UInt8)

theorem first_lt : a.toNat / 4 < 64 := by
  have := a.toNat_lt
  omega

theorem second_lt : a.toNat % 4 * 16 + b.toNat / 16 < 64 := by
  have := b.toNat_lt
  omega

theorem third_lt : b.toNat % 16 * 4 + c.toNat / 64 < 64 := by
  have := c.toNat_lt
  omega

theorem fourth_lt : c.toNat % 64 < 64 :=
  Nat.mod_lt _ (by decide)

theorem ofNat_first :
    UInt8.ofNat (a.toNat / 4 * 4 + (a.toNat % 4 * 16 + b.toNat / 16) / 16) = a := by
  have hb := b.toNat_lt
  rw [show a.toNat / 4 * 4 + (a.toNat % 4 * 16 + b.toNat / 16) / 16 = a.toNat by omega]
  exact UInt8.ofNat_toNat

theorem ofNat_second : UInt8.ofNat ((a.toNat % 4 * 16 + b.toNat / 16) % 16 * 16
    + (b.toNat % 16 * 4 + c.toNat / 64) / 4) = b := by
  have hb := b.toNat_lt
  have hc := c.toNat_lt
  rw [show (a.toNat % 4 * 16 + b.toNat / 16) % 16 * 16 + (b.toNat % 16 * 4 + c.toNat / 64) / 4
    = b.toNat by omega]
  exact UInt8.ofNat_toNat

theorem ofNat_third :
    UInt8.ofNat ((b.toNat % 16 * 4 + c.toNat / 64) % 4 * 64 + c.toNat % 64) = c := by
  have hc := c.toNat_lt
  rw [show (b.toNat % 16 * 4 + c.toNat / 64) % 4 * 64 + c.toNat % 64 = c.toNat by omega]
  exact UInt8.ofNat_toNat

/-! ### Groups of four signs -/

/-- One byte, with its padding. -/
theorem decodeLast?_one :
    decodeLast? (sign (a.toNat / 4)) (sign (a.toNat % 4 * 16)) '=' '=' = some [a] := by
  have hsecond : a.toNat % 4 * 16 < 64 := second_lt a 0
  have hbyte : UInt8.ofNat (a.toNat / 4 * 4 + a.toNat % 4 * 16 / 16) = a := ofNat_first a 0
  simp only [decodeLast?, value?_sign _ (first_lt a), value?_sign _ hsecond, Option.bind_eq_bind,
    Option.bind_some, and_self, if_true, Nat.mul_mod_left, hbyte]

/-- Two bytes, with their padding. -/
theorem decodeLast?_two :
    decodeLast? (sign (a.toNat / 4)) (sign (a.toNat % 4 * 16 + b.toNat / 16))
      (sign (b.toNat % 16 * 4)) '=' = some [a, b] := by
  have hthird : b.toNat % 16 * 4 < 64 := third_lt b 0
  have hbyte : UInt8.ofNat ((a.toNat % 4 * 16 + b.toNat / 16) % 16 * 16 + b.toNat % 16 * 4 / 4)
      = b := ofNat_second a b 0
  simp only [decodeLast?, value?_sign _ (first_lt a), value?_sign _ (second_lt a b),
    value?_sign _ hthird, Option.bind_eq_bind, Option.bind_some, sign_ne_padding _ hthird,
    false_and, if_false, if_true, Nat.mul_mod_left, ofNat_first, hbyte]

/-- Three bytes at the end. -/
theorem decodeLast?_three :
    decodeLast? (sign (a.toNat / 4)) (sign (a.toNat % 4 * 16 + b.toNat / 16))
      (sign (b.toNat % 16 * 4 + c.toNat / 64)) (sign (c.toNat % 64)) = some [a, b, c] := by
  simp only [decodeLast?, value?_sign _ (first_lt a), value?_sign _ (second_lt a b),
    value?_sign _ (third_lt b c), value?_sign _ (fourth_lt c), Option.bind_eq_bind,
    Option.bind_some, sign_ne_padding _ (third_lt b c), sign_ne_padding _ (fourth_lt c),
    false_and, if_false, ofNat_first, ofNat_second, ofNat_third]

/-- Three bytes in front of others. -/
theorem decodeChars?_group {signs : List Char} {bs : Bytes} (hsigns : signs ≠ [])
    (h : decodeChars? signs = some bs) :
    decodeChars? (sign (a.toNat / 4) :: sign (a.toNat % 4 * 16 + b.toNat / 16)
      :: sign (b.toNat % 16 * 4 + c.toNat / 64) :: sign (c.toNat % 64) :: signs) =
      some (a :: b :: c :: bs) := by
  cases signs with
  | nil => exact absurd rfl hsigns
  | cons s rest =>
      simp only [decodeChars?, value?_sign _ (first_lt a), value?_sign _ (second_lt a b),
        value?_sign _ (third_lt b c), value?_sign _ (fourth_lt c), Option.bind_eq_bind,
        Option.bind_some, h, ofNat_first, ofNat_second, ofNat_third]

end Group

/-! ### Whole texts -/

theorem encodeChars_ne_nil (b : UInt8) (bs : Bytes) : encodeChars (b :: bs) ≠ [] := by
  rcases bs with _ | ⟨c, _ | ⟨d, rest⟩⟩
  · exact List.cons_ne_nil _ _
  · exact List.cons_ne_nil _ _
  · exact List.cons_ne_nil _ _

/-- Three bytes at a time, and then what is left: one byte with two signs of padding, two bytes with
one. -/
theorem decodeChars?_encodeChars (bs : Bytes) : decodeChars? (encodeChars bs) = some bs := by
  induction bs using encodeChars.induct with
  | case1 => rfl
  | case2 a => exact decodeLast?_one a
  | case3 a b => exact decodeLast?_two a b
  | case4 a b c rest ih =>
      cases rest with
      | nil => exact decodeLast?_three a b c
      | cons d rest => exact decodeChars?_group a b c (encodeChars_ne_nil d rest) ih

/-- The base64 text of a byte string is read as that byte string. -/
theorem decode?_encode (bs : Bytes) : decode? (encode bs) = some bs := by
  rw [decode?, encode, String.toList_ofList, decodeChars?_encodeChars]

/-- What can be read back is told apart. -/
theorem encode_injective {as bs : Bytes} (h : encode as = encode bs) : as = bs := by
  have hread := congrArg decode? h
  rw [decode?_encode, decode?_encode] at hread
  exact Option.some.inj hread

/-! ### Length -/

theorem utf8Size_sign : ∀ n < 64, (sign n).utf8Size = 1 := by
  decide

/-- Three bytes take four signs, and so do the last one or two. This is what makes an identifier
longer than the tag in it. -/
theorem utf8Len_encodeChars (bs : Bytes) :
    String.utf8Len (encodeChars bs) = (bs.length + 2) / 3 * 4 := by
  have hpadding : '='.utf8Size = 1 := by decide
  induction bs using encodeChars.induct with
  | case1 => rfl
  | case2 a =>
      have hsecond : a.toNat % 4 * 16 < 64 := second_lt a 0
      simp only [encodeChars, String.utf8Len_cons, String.utf8Len_nil, hpadding,
        utf8Size_sign _ (first_lt a), utf8Size_sign _ hsecond, List.length_singleton]
  | case3 a b =>
      have hthird : b.toNat % 16 * 4 < 64 := third_lt b 0
      simp only [encodeChars, String.utf8Len_cons, String.utf8Len_nil, hpadding,
        utf8Size_sign _ (first_lt a), utf8Size_sign _ (second_lt a b), utf8Size_sign _ hthird,
        List.length_cons, List.length_nil]
  | case4 a b c rest ih =>
      simp only [encodeChars, String.utf8Len_cons, utf8Size_sign _ (first_lt a),
        utf8Size_sign _ (second_lt a b), utf8Size_sign _ (third_lt b c),
        utf8Size_sign _ (fourth_lt c), ih, List.length_cons]
      omega

theorem utf8ByteSize_encode (bs : Bytes) :
    (encode bs).utf8ByteSize = (bs.length + 2) / 3 * 4 := by
  rw [encode, String.utf8ByteSize_ofList, utf8Len_encodeChars]

end ChainIndex.Base64
