import Mathlib.Data.List.TakeWhile
import ChainIndex.Json.Token
import ChainIndex.Json.Printer
import ChainIndex.Proofs.Number.Digits
import ChainIndex.Proofs.Text.Utf8

/-!
# The tokens of written text

The written form of a name, a number or a quoted text splits into one token (`tokensAfter_word`,
`tokensAfter_quote`), with whatever comes behind it. A word ends where a byte follows that belongs
to no word; the bytes of quoted text are put together character by character.

The splitter goes through bytes and keeps what it has read of the token that it is in, so no lemma
can be about a text as a whole. Each of them is about a written piece in front of any bytes: it says
that splitting goes on behind the piece as if it started there, with one token more in front. Such
lemmas can be chained piece by piece, and the only thing to see about what follows is that it does
not go on with a word (`EndsWord`).
-/

namespace ChainIndex.Json

/-! ### Words -/

/-- No word goes on with the first of the bytes. -/
def EndsWord (bs : Bytes) : Prop :=
  ∀ b ∈ bs.head?, isWordByte b = false

/-- Where a word ends, its token can be split off, and splitting goes on as at the beginning. -/
theorem tokensAfter_of_endsWord (word : Bytes) {rest : Bytes} (h : EndsWord rest) :
    tokensAfter word rest =
      (wordTokens? word).bind fun ts => (tokensAfter [] rest).map (ts ++ ·) := by
  cases rest with
  | nil =>
      have hnil : tokensAfter [] [] = some [] := rfl
      rw [tokensAfter, hnil]
      cases wordTokens? word with
      | none => rfl
      | some ts => rw [Option.bind_some, Option.map_some, List.append_nil]
  | cons b rest =>
      have hb : ¬ isWordByte b = true := by rw [h b rfl]; decide
      have hempty : wordTokens? [] = some [] := rfl
      -- both sides go on behind the byte, the left one with the word in front
      rw [tokensAfter, tokensAfter, if_neg hb, if_neg hb, hempty]
      cases wordTokens? word with
      | none => rfl
      | some ts =>
          dsimp only
          rw [Option.bind_some]
          split
          all_goals simp only [List.nil_append, Option.map_map, Option.map_none,
            Function.comp_def]

/-- A character that stands in words. -/
def IsWordChar (c : Char) : Prop :=
  c.toNat < 0x80 ∧ isWordByte (UInt8.ofNat c.toNat) = true

instance (c : Char) : Decidable (IsWordChar c) :=
  inferInstanceAs (Decidable (_ ∧ _))

theorem ofUInt8_ofNat_toNat {c : Char} (h : c.toNat < 0x80) :
    Char.ofUInt8 (UInt8.ofNat c.toNat) = c := by
  have hall : ∀ n < 0x80, Char.ofUInt8 (UInt8.ofNat n) = Char.ofNat n := by decide
  rw [hall _ h, Char.ofNat_toNat]

/-- The bytes of a word are put aside in reverse, without a look at what they make. -/
theorem tokensAfter_wordBytes {bs : Bytes} (h : ∀ b ∈ bs, isWordByte b = true) (word rest : Bytes) :
    tokensAfter word (bs ++ rest) = tokensAfter (bs.reverse ++ word) rest := by
  induction bs generalizing word with
  | nil => rfl
  | cons b bs ih =>
      rw [List.forall_mem_cons] at h
      rw [List.cons_append, tokensAfter, if_pos h.1, ih h.2, List.reverse_cons, List.append_assoc,
        List.singleton_append]

/-- The characters of a literal name or a number are the token of its value. -/
theorem tokensAfter_word (cs : List Char) {v : Json} (hne : cs ≠ [])
    (hwords : (cs.all fun c => decide (IsWordChar c)) = true) (hv : scalar? cs = some v)
    {rest : Bytes} (hrest : EndsWord rest) :
    tokensAfter [] (Utf8.encodeChars cs ++ rest) =
      (tokensAfter [] rest).map (.scalar v :: ·) := by
  have hword : ∀ c ∈ cs, IsWordChar c := fun c hc =>
    of_decide_eq_true (List.all_eq_true.mp hwords c hc)
  have hbytes : Utf8.encodeChars cs = cs.map fun c => UInt8.ofNat c.toNat :=
    Utf8.encodeChars_of_ascii fun c hc => (hword c hc).1
  have hall : ∀ b ∈ Utf8.encodeChars cs, isWordByte b = true := by
    rw [hbytes, List.forall_mem_map]
    exact fun c hc => (hword c hc).2
  have hchars : (Utf8.encodeChars cs).map Char.ofUInt8 = cs := by
    rw [hbytes, List.map_map]
    exact (List.map_congr_left fun c hc => ofUInt8_ofNat_toNat (hword c hc).1).trans
      (List.map_id' cs)
  have htoken : wordTokens? (Utf8.encodeChars cs).reverse = some [.scalar v] := by
    have hempty : ¬ (Utf8.encodeChars cs).reverse.isEmpty = true := by
      rw [List.isEmpty_reverse, List.isEmpty_iff, hbytes, List.map_eq_nil_iff]
      exact hne
    rw [wordTokens?, if_neg hempty, List.reverse_reverse, hchars, hv, Option.map_some]
  -- the bytes gather in reverse until one comes that belongs to no word
  rw [tokensAfter_wordBytes hall, List.append_nil, tokensAfter_of_endsWord _ hrest, htoken,
    Option.bind_some]
  rfl

/-! ### Numbers -/

theorem isWordChar_of_isDigit {c : Char} (h : c.isDigit) : IsWordChar c := by
  have hlt : c.toNat < 0x80 := by
    have := (Char.isDigit_iff_toNat.mp h).2
    exact lt_of_le_of_lt this (by decide)
  refine ⟨hlt, ?_⟩
  rw [isWordByte, ofUInt8_ofNat_toNat hlt, Char.isAlphanum, h, Bool.or_true, Bool.true_or,
    Bool.true_or, Bool.true_or]

/-- Digits are a number with either sign, but for zero with a sign, which is no integer. -/
theorem number?_toDigits (negative : Bool) (n : Nat) :
    number? negative (Nat.toDigits 10 n) =
      some (if negative then (if n = 0 then .foreign else .int (-Int.ofNat n))
        else .int (Int.ofNat n)) := by
  have hdigits : ∀ c ∈ Nat.toDigits 10 n, c.isDigit := fun c hc => Digits.isDigit_of_mem_toDigits hc
  have hzero : ¬ ((Nat.toDigits 10 n).isEmpty ||
      ((Nat.toDigits 10 n).head? == some '0' && (Nat.toDigits 10 n).length != 1)) = true := by
    by_cases hn : n = 0
    · subst hn
      decide
    · simp [Digits.head?_toDigits hn, Nat.toDigits_ne_nil]
  unfold number?
  dsimp only
  rw [List.takeWhile_eq_self_iff.mpr hdigits, List.dropWhile_eq_nil_iff.mpr hdigits, if_neg hzero,
    Digits.magnitude?_toDigits]
  rfl

theorem scalar?_toDigits (n : Nat) : scalar? (Nat.toDigits 10 n) = some (.int n) := by
  have hnumber := number?_toDigits false n
  have hdigits : ∀ c ∈ Nat.toDigits 10 n, c.isDigit := fun c hc => Digits.isDigit_of_mem_toDigits hc
  cases hchars : Nat.toDigits 10 n with
  | nil => exact absurd hchars Nat.toDigits_ne_nil
  | cons c rest =>
      rw [hchars] at hdigits hnumber
      have hc := hdigits c List.mem_cons_self
      -- a digit begins no name and is no sign
      have hnumeric : scalar? (c :: rest) = number? false (c :: rest) := by
        unfold scalar?
        split
        all_goals first
          | rfl
          | next heq =>
              rw [(List.cons.inj heq).1] at hc
              exact absurd hc (by decide)
      rw [hnumeric, hnumber]
      rfl

/-- The text of an integer is read as that integer. -/
theorem scalar?_ofInt (n : Int) : scalar? (Digits.ofInt n).toList = some (.int n) := by
  have hdash : "-".toList = ['-'] := by decide
  unfold Digits.ofInt Digits.ofNat
  split
  · next hneg =>
      rw [String.toList_append, hdash, String.toList_ofList, List.singleton_append]
      have hne : n.natAbs ≠ 0 := by omega
      show number? true (Nat.toDigits 10 n.natAbs) = some (.int n)
      have hvalue : -Int.ofNat n.natAbs = n := by
        rw [Int.ofNat_eq_natCast]
        omega
      rw [number?_toDigits, if_pos rfl, if_neg hne, hvalue]
  · next hpos =>
      have hvalue : (n.natAbs : Int) = n := by omega
      rw [String.toList_ofList, scalar?_toDigits, hvalue]

theorem toList_ofInt_ne_nil (n : Int) : (Digits.ofInt n).toList ≠ [] := by
  intro hnil
  have hvalue := scalar?_ofInt n
  rw [hnil] at hvalue
  cases hvalue

theorem isWordChar_of_mem_ofInt {n : Int} {c : Char} (h : c ∈ (Digits.ofInt n).toList) :
    IsWordChar c := by
  have hdash : "-".toList = ['-'] := by decide
  unfold Digits.ofInt Digits.ofNat at h
  split at h
  · rw [String.toList_append, hdash, String.toList_ofList, List.singleton_append,
      List.mem_cons] at h
    rcases h with rfl | h
    · exact ⟨by decide, by decide⟩
    · exact isWordChar_of_isDigit (Digits.isDigit_of_mem_toDigits h)
  · rw [String.toList_ofList] at h
    exact isWordChar_of_isDigit (Digits.isDigit_of_mem_toDigits h)

/-! ### Quoted text

A character is escaped with a letter, escaped by its number, or stands for itself, and there is one
lemma for each. Of a character that stands for itself every byte does, which needs an argument for
characters of several bytes only: all of these bytes are too large to be a quote or a backslash. -/

/-- Quoted text part way through, with some characters in it so far. -/
def Quoted.ofChars (cs : List Char) : Quoted :=
  ⟨(Utf8.encodeChars cs).reverse, true, none⟩

theorem Quoted.text?_ofChars (cs : List Char) : (ofChars cs).text? = some (String.ofList cs) := by
  have hdecode := Utf8.decode?_encode (String.ofList cs)
  rw [Utf8.encode, String.toList_ofList] at hdecode
  rw [text?, ofChars]
  dsimp only
  rw [List.reverse_reverse, hdecode]
  rfl

/-- A byte that stands for itself inside quotes. -/
def IsPlain (b : UInt8) : Prop :=
  0x20 ≤ b.toNat ∧ b ≠ 0x22 ∧ b ≠ 0x5C

theorem tokensQuoted_of_isPlain {b : UInt8} (h : IsPlain b) (q : Quoted) (rest : Bytes) :
    tokensQuoted q (b :: rest) = tokensQuoted (q.addByte b) rest := by
  obtain ⟨hlow, hquote, hslash⟩ := h
  have hcontrol : ¬ b < 0x20 := by
    rw [UInt8.lt_iff_toNat_lt]
    exact Nat.not_lt.mpr hlow
  rw [tokensQuoted, if_neg hcontrol]
  · exact hquote
  · exact fun _ _ _ _ _ heq _ => hslash heq
  · exact fun _ _ heq _ => hslash heq

/-- Inside quotes bytes are put aside one by one, whether or not they make whole characters so far;
only the closing quote asks what they make. -/
theorem tokensQuoted_plainBytes {bs : Bytes} (h : ∀ b ∈ bs, IsPlain b) (done rest : Bytes) :
    tokensQuoted ⟨done, true, none⟩ (bs ++ rest) =
      tokensQuoted ⟨bs.reverse ++ done, true, none⟩ rest := by
  induction bs generalizing done with
  | nil => rfl
  | cons b bs ih =>
      rw [List.forall_mem_cons] at h
      rw [List.cons_append, tokensQuoted_of_isPlain h.1, List.reverse_cons, List.append_assoc,
        List.singleton_append]
      exact ih h.2 (b :: done)

/-- Characters that are not escaped consist of bytes that stand for themselves. -/
theorem isPlain_of_mem_encodeChar {c : Char} (hlow : 0x20 ≤ c.toNat) (hquote : c ≠ '"')
    (hslash : c ≠ '\\') {b : UInt8} (hb : b ∈ Utf8.encodeChar c) : IsPlain b := by
  by_cases hascii : c.toNat < 0x80
  · rw [Utf8.encodeChar_of_ascii hascii, List.mem_singleton] at hb
    subst hb
    have hvalue : (UInt8.ofNat c.toNat).toNat = c.toNat :=
      UInt8.toNat_ofNat_of_lt' (hascii.trans (by decide))
    have hne : ∀ d : Char, d.toNat < 0x80 → c ≠ d → UInt8.ofNat c.toNat ≠ UInt8.ofNat d.toNat := by
      intro d hd hcd heq
      have heq := congrArg Char.ofUInt8 heq
      rw [ofUInt8_ofNat_toNat hascii, ofUInt8_ofNat_toNat hd] at heq
      exact hcd heq
    exact ⟨by rwa [hvalue], hne '"' (by decide) hquote, hne '\\' (by decide) hslash⟩
  · have hlarge := Utf8.le_of_mem_encodeChar (Nat.le_of_not_lt hascii) hb
    refine ⟨by omega, ?_, ?_⟩
    · rintro rfl
      exact absurd hlarge (by decide)
    · rintro rfl
      exact absurd hlarge (by decide)

/-- An escape with a letter adds its character. -/
theorem tokensQuoted_shortEscape {e b : UInt8} (hunit : e ≠ 0x75) (h : shortEscape? e = some b)
    (q : Quoted) (rest : Bytes) :
    tokensQuoted q (0x5C :: e :: rest) = tokensQuoted (q.addByte b) rest := by
  rw [tokensQuoted, h]
  exact fun _ _ _ _ _ heq _ => hunit heq

/-- A control character that has no letter is escaped by its number. -/
theorem tokensQuoted_unitEscape {n : Nat} (hn : n < 0x20) (done rest : Bytes) :
    tokensQuoted ⟨done, true, none⟩
      (Utf8.encodeChars ['\\', 'u', '0', '0', Hex.digit (n / 16), Hex.digit n] ++ rest) =
      tokensQuoted ⟨(Utf8.encodeChar (Char.ofNat n)).reverse ++ done, true, none⟩ rest := by
  -- there are so few of them that they can be tried
  have hbytes : ∀ m < 0x20,
      Utf8.encodeChars ['\\', 'u', '0', '0', Hex.digit (m / 16), Hex.digit m] =
        [0x5C, 0x75, 0x30, 0x30, UInt8.ofNat (Hex.digit (m / 16)).toNat,
          UInt8.ofNat (Hex.digit m).toNat] := by decide
  have hvalue : ∀ m < 0x20, hexFour? 0x30 0x30 (UInt8.ofNat (Hex.digit (m / 16)).toNat)
      (UInt8.ofNat (Hex.digit m).toNat) = some m := by decide
  have hhigh : isHighSurrogate n = false := by
    rw [isHighSurrogate, decide_eq_false (by omega), Bool.false_and]
  have hlow : isLowSurrogate n = false := by
    rw [isLowSurrogate, decide_eq_false (by omega), Bool.false_and]
  rw [hbytes n hn]
  simp only [List.cons_append, List.nil_append]
  rw [tokensQuoted, hvalue n hn]
  dsimp only [Quoted.addUnit]
  rw [hhigh, hlow]
  rfl

/-- A character as it is written inside quotes is read as that character. -/
theorem tokensQuoted_escapeChar (cs : List Char) (c : Char) (rest : Bytes) :
    tokensQuoted (.ofChars cs) (Utf8.encodeChars (escapeChar c) ++ rest) =
      tokensQuoted (.ofChars (cs ++ [c])) rest := by
  have hnext : Quoted.ofChars (cs ++ [c]) =
      ⟨(Utf8.encodeChar c).reverse ++ (Utf8.encodeChars cs).reverse, true, none⟩ := by
    rw [Quoted.ofChars, Utf8.encodeChars_append, List.reverse_append]
    exact congrArg (fun bs => (⟨bs.reverse ++ _, true, none⟩ : Quoted)) (List.append_nil _)
  have hshort : ∀ e b : UInt8, e ≠ 0x75 → shortEscape? e = some b →
      Utf8.encodeChar c = [b] →
      tokensQuoted (.ofChars cs) (0x5C :: e :: rest) =
        tokensQuoted (.ofChars (cs ++ [c])) rest := by
    intro e b hunit h hc
    rw [tokensQuoted_shortEscape hunit h, hnext, hc]
    rfl
  have hnat : ∀ n, c.toNat = n → c = Char.ofNat n := by
    rintro n rfl
    exact (Char.ofNat_toNat c).symm
  -- the cases are those of the writer, first the characters that have a letter
  unfold escapeChar
  split
  · exact hshort 0x22 0x22 (by decide) (by decide) (by decide)
  · exact hshort 0x5C 0x5C (by decide) (by decide) (by decide)
  · exact hshort 0x6E 0x0A (by decide) (by decide) (by decide)
  · exact hshort 0x72 0x0D (by decide) (by decide) (by decide)
  · exact hshort 0x74 0x09 (by decide) (by decide) (by decide)
  · next hquote hslash _ _ _ =>
      split
      · next hc => exact hshort 0x62 0x08 (by decide) (by decide) (by rw [hnat _ hc]; decide)
      · split
        · next hc => exact hshort 0x66 0x0C (by decide) (by decide) (by rw [hnat _ hc]; decide)
        · -- a control character is escaped by its number, anything else stands for itself
          split
          · next hlow =>
              have hunit := tokensQuoted_unitEscape hlow (Utf8.encodeChars cs).reverse rest
              rwa [Char.ofNat_toNat, ← hnext] at hunit
          · next hlow =>
              have hplain := tokensQuoted_plainBytes
                (fun b hb => isPlain_of_mem_encodeChar (Nat.le_of_not_lt hlow) hquote hslash hb)
                (Utf8.encodeChars cs).reverse rest
              rw [← hnext] at hplain
              rwa [Utf8.encodeChars_cons, Utf8.encodeChars, List.flatMap_nil, List.append_nil]

/-- Characters are read one after another, each behind those that are there already. The induction
needs any characters in front, and not only none. -/
theorem tokensQuoted_escapeChars (cs ds : List Char) (rest : Bytes) :
    tokensQuoted (.ofChars cs) (Utf8.encodeChars (ds.flatMap escapeChar) ++ rest) =
      tokensQuoted (.ofChars (cs ++ ds)) rest := by
  induction ds generalizing cs with
  | nil => rw [List.append_nil]; rfl
  | cons d ds ih =>
      rw [List.flatMap_cons, Utf8.encodeChars_append, List.append_assoc, tokensQuoted_escapeChar,
        ih, List.append_assoc, List.singleton_append]

/-- Text in quotes is the token of that text. -/
theorem tokensAfter_quote (s : String) (rest : Bytes) :
    tokensAfter [] (Utf8.encodeChars (quote s) ++ rest) =
      (tokensAfter [] rest).map (.text (some s) :: ·) := by
  have hopen : Utf8.encodeChar '"' = [0x22] := by decide
  have hclose : Utf8.encodeChars ['"'] = [0x22] := by decide
  have hstart : tokensAfter [] (0x22 :: (Utf8.encodeChars (s.toList.flatMap escapeChar) ++
      0x22 :: rest)) = tokensQuoted (.ofChars [])
        (Utf8.encodeChars (s.toList.flatMap escapeChar) ++ 0x22 :: rest) := by
    show Option.map _ _ = _
    exact Option.map_id'
  rw [quote, List.cons_append, Utf8.encodeChars_cons, Utf8.encodeChars_append, hopen, hclose,
    List.singleton_append, List.cons_append, List.append_assoc, List.singleton_append, hstart,
    tokensQuoted_escapeChars, List.nil_append, tokensQuoted, Quoted.text?_ofChars,
    String.ofList_toList]

end ChainIndex.Json
