import ChainIndex.Proofs.Text.Cut
import ChainIndex.Text.Bech32
import Mathlib

/-!
# Bech32 text says what it stands for

A text that is written for a byte string is read as the digits of that byte string, and these give
the bytes back (`Bech32.decode_of_encode`, `Bech32.bytesOfDigits?_digitsOfBytes`). The register of
the checksum is linear in exclusive or, so the six digits that it holds bring it wherever they are
meant to (`Bech32.residue_append_checksum`). The readable part comes back in lower case, whatever
case it was given in.

The checksum is not looked into as a polynomial. All that counts is that advancing the register
commutes with exclusive or (`Bech32.advance_xor`): what six digits come to is then what six zeros
come to, changed by the register that the digits spell, and the checksum is chosen to make up for
the former. For the bytes, the digits are followed down to bits, where both groupings are plain; the
zeros that fill up the last digit are fewer than five, so that they never look like a byte.
-/

namespace ChainIndex.Bech32

/-! ### Checksum -/

theorem ite_bxor (a b : Bool) (x : BitVec 30) :
    (if (a ^^ b) = true then x else 0) =
      (if a = true then x else 0) ^^^ (if b = true then x else 0) := by
  cases a <;> cases b <;> simp

theorem feedback_xor (a b : BitVec 5) : feedback (a ^^^ b) = feedback a ^^^ feedback b := by
  simp only [feedback, BitVec.getLsbD_xor, ite_bxor]
  ac_rfl

/-- The register is linear: what two registers and two digits come to together is what each of
them comes to. -/
theorem advance_xor (r s : BitVec 30) (v w : BitVec 5) :
    advance (r ^^^ s) (v ^^^ w) = advance r v ^^^ advance s w := by
  simp only [advance, BitVec.shiftLeft_xor_distrib, BitVec.setWidth_xor,
    BitVec.ushiftRight_xor_distrib, feedback_xor]
  ac_rfl

/-- Digits act on a register as zeros do, and on their own. -/
theorem foldl_advance_xor (digits : List (BitVec 5)) (r s : BitVec 30) :
    digits.foldl advance (r ^^^ s) =
      (List.replicate digits.length 0).foldl advance r ^^^ digits.foldl advance s := by
  induction digits generalizing r s with
  | nil => rfl
  | cons v rest ih =>
      have hstep : advance (r ^^^ s) v = advance r 0 ^^^ advance s v := by
        rw [← advance_xor, show (0 : BitVec 5) ^^^ v = v from BitVec.zero_xor]
      rw [List.foldl_cons, hstep, ih, List.length_cons, List.replicate_succ, List.foldl_cons,
        List.foldl_cons]

/-- While nothing leaves the register, its digits come in one after another. -/
theorem advance_shifted (register : BitVec 30) (n : Nat) :
    advance (register >>> (n + 5)) ((register >>> n).setWidth 5) = register >>> n := by
  have htop : register >>> (n + 5) >>> 25 = 0#30 := by
    rw [← BitVec.shiftRight_add]
    exact BitVec.ushiftRight_eq_zero (by omega)
  have hfeedback : feedback (BitVec.setWidth 5 0#30) = 0#30 := by decide
  rw [advance, htop, hfeedback, BitVec.xor_zero]
  -- bit by bit: the lowest five come from the digit, the others from five places further down
  apply BitVec.eq_of_getLsbD_eq
  intro i hi
  simp only [BitVec.getLsbD_xor, BitVec.getLsbD_shiftLeft, BitVec.getLsbD_ushiftRight,
    BitVec.getLsbD_setWidth, hi, decide_true, Bool.true_and]
  by_cases hlow : i < 5
  · simp [hlow]
  · simp [hlow, show n + 5 + (i - 5) = n + i by omega]

/-- An empty register takes on what its digits say. -/
theorem foldl_advance_registerDigits (register : BitVec 30) :
    (registerDigits register).foldl advance 0 = register := by
  have hempty : register >>> 30 = 0#30 := BitVec.ushiftRight_eq_zero (Nat.le_refl 30)
  simp only [registerDigits, List.map_cons, List.map_nil, List.foldl_cons, List.foldl_nil]
  rw [show (0 : BitVec 30) = register >>> (25 + 5) from hempty.symm, advance_shifted,
    advance_shifted register 20, advance_shifted register 15, advance_shifted register 10,
    advance_shifted register 5, advance_shifted register 0, BitVec.ushiftRight_zero]

theorem residue_append (digits more : List (BitVec 5)) :
    residue (digits ++ more) = more.foldl advance (residue digits) :=
  List.foldl_append

/-- With its checksum, the residue of a text is one. -/
theorem residue_append_checksum (part : Bytes) (digits : List (BitVec 5)) :
    residue (spreadPart part ++ (digits ++ checksum part digits)) = 1 := by
  -- six digits move a register as six zeros do, and put in what they spell
  have hsplit : ∀ (r register : BitVec 30), (registerDigits register).foldl advance r =
      (List.replicate 6 0).foldl advance r ^^^ register := by
    intro r register
    have hxor := foldl_advance_xor (registerDigits register) r 0
    rw [foldl_advance_registerDigits, show r ^^^ 0 = r from BitVec.xor_zero] at hxor
    exact hxor
  rw [← List.append_assoc, residue_append, checksum, hsplit, ← residue_append,
    ← BitVec.xor_assoc, BitVec.xor_self, BitVec.zero_xor]

/-! ### Digits and bytes -/

theorem digitBits_digitOf : ∀ a b c d e, digitBits (digitOf a b c d e) = [a, b, c, d, e] := by
  decide +kernel

/-- Taken by fives, bits stay what they are, but for zeros that fill up the last five. -/
theorem flatMap_digitBits_fives (bits : List Bool) :
    ∃ k < 5, (fives bits).flatMap digitBits = bits ++ List.replicate k false := by
  induction bits using fives.induct with
  | case1 => exact ⟨0, by decide, rfl⟩
  | case2 a => exact ⟨4, by decide, by simp [fives, digitBits_digitOf]⟩
  | case3 a b => exact ⟨3, by decide, by simp [fives, digitBits_digitOf]⟩
  | case4 a b c => exact ⟨2, by decide, by simp [fives, digitBits_digitOf]⟩
  | case5 a b c d => exact ⟨1, by decide, by simp [fives, digitBits_digitOf]⟩
  | case6 a b c d e rest ih =>
      obtain ⟨k, hk, hrest⟩ := ih
      refine ⟨k, hk, ?_⟩
      rw [fives, List.flatMap_cons, digitBits_digitOf, hrest]
      rfl

/-- A byte is the sum of its bits. -/
theorem sum_testBit : ∀ n < 256,
    128 * (n.testBit 7).toNat + 64 * (n.testBit 6).toNat + 32 * (n.testBit 5).toNat
      + 16 * (n.testBit 4).toNat + 8 * (n.testBit 3).toNat + 4 * (n.testBit 2).toNat
      + 2 * (n.testBit 1).toNat + (n.testBit 0).toNat = n := by
  decide +kernel

/-- The bits of bytes, and fewer than five zeros, are read as the bytes. -/
theorem eights?_flatMap_byteBits (bs : Bytes) {k : Nat} (hk : k < 5) :
    eights? (bs.flatMap byteBits ++ List.replicate k false) = some bs := by
  induction bs with
  | nil =>
      rcases (by omega : k = 0 ∨ k = 1 ∨ k = 2 ∨ k = 3 ∨ k = 4) with rfl | rfl | rfl | rfl | rfl
      all_goals rfl
  | cons b rest ih =>
      simp only [List.flatMap_cons, byteBits, List.map_cons, List.map_nil, List.cons_append,
        List.nil_append, eights?, sum_testBit _ b.toNat_lt, UInt8.ofNat_toNat, ih, Option.map_some]

/-- The digits of a byte string give the byte string back. -/
theorem bytesOfDigits?_digitsOfBytes (bs : Bytes) :
    bytesOfDigits? (digitsOfBytes bs) = some bs := by
  obtain ⟨k, hk, hbits⟩ := flatMap_digitBits_fives (bs.flatMap byteBits)
  rw [bytesOfDigits?, digitsOfBytes, hbits, eights?_flatMap_byteBits bs hk]

/-! ### The digits of a text -/

theorem value?_sign : ∀ v : BitVec 5, value? (sign v).toLower = some v := by
  decide +kernel

theorem sign_ne_separator : ∀ v : BitVec 5, sign v ≠ '1' := by
  decide +kernel

theorem isUpper_sign : ∀ v : BitVec 5, (sign v).isUpper = false := by
  decide +kernel

/-- A character that is not in upper case goes with everything else that is not. -/
theorem exists_join? {k : LetterCase} {c : Char} (hk : k ≠ .upper) (hc : c.isUpper = false) :
    ∃ k', k.join? c = some k' ∧ k' ≠ .upper := by
  unfold LetterCase.join?
  rw [if_neg hk, hc]
  split
  · exact ⟨.lower, rfl, nofun⟩
  · exact ⟨k, rfl, hk⟩

theorem readDigits_map_sign {k : LetterCase} (hk : k ≠ .upper) (digits : List (BitVec 5)) :
    readDigits k (digits.map sign) = .ok digits := by
  induction digits generalizing k with
  | nil => rfl
  | cons v rest ih =>
      obtain ⟨k', hjoin, hk'⟩ := exists_join? hk (isUpper_sign v)
      rw [List.map_cons, readDigits, hjoin]
      dsimp only
      rw [value?_sign]
      dsimp only
      rw [ih hk']
      rfl

/-- The last separator of a text is the one behind which there is none. -/
theorem splitLast_append {front tail : List Char} (h : '1' ∉ tail) :
    splitLast (front ++ '1' :: tail) = some (front, tail) := by
  have htake : ∀ c ∈ tail.reverse, (c != '1') = true := by
    intro c hc
    rw [bne_iff_ne]
    exact fun heq => h (heq ▸ List.mem_reverse.mp hc)
  have hspan : (front ++ '1' :: tail).reverse.span (· != '1') =
      (tail.reverse, '1' :: front.reverse) := by
    rw [List.span_eq_takeWhile_dropWhile, List.reverse_append, List.reverse_cons,
      List.append_assoc, List.takeWhile_append_of_pos htake, List.dropWhile_append_of_pos htake]
    simp
  unfold splitLast
  rw [hspan]
  simp

/-! ### The readable part

The case of a text is found while reading it, and a text of both cases is refused. A part in upper
case is the one kind that does not come back as it was, so the lemmas keep track of whether upper
case has been seen, and of nothing else. -/

/-- A readable part in lower case. -/
def lowerPart (part : String) : String :=
  String.ofList (part.toList.map Char.toLower)

/-- In lower case, printable characters are printable still. -/
theorem printable_toLower {c : Char} (h : 33 ≤ c.toNat ∧ c.toNat ≤ 126) :
    33 ≤ c.toLower.toNat ∧ c.toLower.toNat ≤ 126 := by
  have hall : ∀ n < 127, 33 ≤ n →
      33 ≤ (Char.ofNat n).toLower.toNat ∧ (Char.ofNat n).toLower.toNat ≤ 126 := by
    decide
  have hc := hall c.toNat (by omega) h.1
  rwa [Char.ofNat_toNat] at hc

theorem utf8Len_of_printable {cs : List Char} (h : ∀ c ∈ cs, 33 ≤ c.toNat ∧ c.toNat ≤ 126) :
    String.utf8Len cs = cs.length := by
  induction cs with
  | nil => rfl
  | cons c rest ih =>
      rw [List.forall_mem_cons] at h
      have hone : c.utf8Size = 1 := by
        rw [Char.utf8Size_eq_one_iff, UInt32.le_iff_toNat_le]
        exact Nat.le_trans h.1.2 (by decide)
      rw [String.utf8Len_cons, ih h.2, hone, List.length_cons]

theorem of_join? {k k' : LetterCase} {c : Char} (h : k.join? c = some k') (hk' : k' ≠ .upper) :
    k ≠ .upper ∧ c.isUpper = false := by
  unfold LetterCase.join? at h
  split at h
  · next hlower =>
      have hupper := Bool.eq_false_of_not_eq_true (Char.not_isUpper_of_isLower hlower)
      split at h
      · cases h
      · next hk => exact ⟨hk, hupper⟩
  · split at h
    · split at h
      · cases h
      · exact absurd (Option.some.inj h).symm hk'
    · next hupper => exact ⟨Option.some.inj h ▸ hk', by simpa using hupper⟩

/-- The characters of a readable part are printable, and unless it is in upper case, it has no
letter in upper case. -/
theorem of_readableCase {k k' : LetterCase} {cs : List Char} (h : readableCase k cs = .ok k') :
    (∀ c ∈ cs, 33 ≤ c.toNat ∧ c.toNat ≤ 126) ∧
      (k' ≠ .upper → k ≠ .upper ∧ ∀ c ∈ cs, c.isUpper = false) := by
  induction cs generalizing k with
  | nil =>
      cases h
      exact ⟨nofun, fun hk => ⟨hk, nofun⟩⟩
  | cons c rest ih =>
      rw [readableCase] at h
      split at h
      · next hc =>
          split at h
          · cases h
          · next k'' hjoin =>
              obtain ⟨hprintable, hcase⟩ := ih h
              refine ⟨List.forall_mem_cons.mpr ⟨hc, hprintable⟩, fun hk' => ?_⟩
              obtain ⟨hk'', hrest⟩ := hcase hk'
              obtain ⟨hk, hupper⟩ := of_join? hjoin hk''
              exact ⟨hk, List.forall_mem_cons.mpr ⟨hupper, hrest⟩⟩
      · cases h

/-- Printable characters of which none is in upper case are a readable part. -/
theorem exists_readableCase {k : LetterCase} {cs : List Char} (hk : k ≠ .upper)
    (hprintable : ∀ c ∈ cs, 33 ≤ c.toNat ∧ c.toNat ≤ 126) (hcase : ∀ c ∈ cs, c.isUpper = false) :
    ∃ k', readableCase k cs = .ok k' ∧ k' ≠ .upper := by
  induction cs generalizing k with
  | nil => exact ⟨k, rfl, hk⟩
  | cons c rest ih =>
      rw [List.forall_mem_cons] at hprintable hcase
      obtain ⟨k'', hjoin, hk''⟩ := exists_join? hk hcase.1
      rw [readableCase, if_pos hprintable.1, hjoin]
      exact ih hk'' hprintable.2 hcase.2

theorem toList_lowerPart (part : String) :
    (lowerPart part).toList = part.toList.map Char.toLower :=
  String.toList_ofList

theorem isUpper_of_mem_lowerPart {part : String} :
    ∀ c ∈ (lowerPart part).toList, c.isUpper = false := by
  rw [toList_lowerPart]
  exact List.forall_mem_map.mpr fun c _ => c.isUpper_toLower_eq_false

/-- A readable part is in lower case if it has no letter in upper case. -/
theorem lowerPart_eq_iff {part : String} :
    lowerPart part = part ↔ ∀ c ∈ part.toList, c.isUpper = false := by
  constructor
  · intro hsame
    rw [← hsame]
    exact isUpper_of_mem_lowerPart
  · intro hcase
    have hid : part.toList.map Char.toLower = part.toList.map id :=
      List.map_congr_left fun c hc => Char.toLower_eq_of_not_isUpper (by simp [hcase c hc])
    rw [← String.toList_inj, toList_lowerPart, hid, List.map_id]

theorem lowered_of_ne {k : LetterCase} (hk : k ≠ .upper) (part : String) : lowered part k = part :=
  if_neg hk

theorem readableCase_of_checkReadable {part : String} {k : LetterCase}
    (h : checkReadable part = .ok k) :
    ¬ (part.utf8ByteSize = 0 ∨ 83 < part.utf8ByteSize) ∧
      readableCase .unseen part.toList = .ok k := by
  unfold checkReadable at h
  split at h
  · cases h
  · next hlen => exact ⟨hlen, h⟩

/-- A readable part is written in lower case, whatever case it is given in. -/
theorem lowered_of_checkReadable {part : String} {k : LetterCase}
    (h : checkReadable part = .ok k) : lowered part k = lowerPart part := by
  obtain ⟨hprintable, hcase⟩ := of_readableCase (readableCase_of_checkReadable h).2
  by_cases hk : k = .upper
  · rw [lowered, if_pos hk, lowerPart]
  · rw [lowered_of_ne hk, lowerPart_eq_iff.mpr (hcase hk).2]

/-- What a readable part becomes in lower case is a readable part. -/
theorem checkReadable_lowerPart {part : String} {k : LetterCase} (h : checkReadable part = .ok k) :
    ∃ k', checkReadable (lowerPart part) = .ok k' ∧ k' ≠ .upper := by
  obtain ⟨hlen, hcase⟩ := readableCase_of_checkReadable h
  have hprintable := (of_readableCase hcase).1
  have hlower : ∀ c ∈ (lowerPart part).toList, 33 ≤ c.toNat ∧ c.toNat ≤ 126 := by
    rw [toList_lowerPart]
    exact List.forall_mem_map.mpr fun c hc => printable_toLower (hprintable c hc)
  have hsize : (lowerPart part).utf8ByteSize = part.utf8ByteSize := by
    rw [Text.utf8ByteSize_eq_utf8Len, Text.utf8ByteSize_eq_utf8Len, utf8Len_of_printable hlower,
      utf8Len_of_printable hprintable, toList_lowerPart, List.length_map]
  rw [checkReadable, hsize, if_neg hlen]
  exact exists_readableCase nofun hlower isUpper_of_mem_lowerPart

/-! ### Whole texts -/

theorem exists_checkReadable {part text : String} {bs : Bytes} (h : encode part bs = .ok text) :
    ∃ k, checkReadable part = .ok k := by
  unfold encode at h
  cases hk : checkReadable part with
  | error fault =>
      rw [hk] at h
      cases h
  | ok k => exact ⟨k, rfl⟩

/-- A text that is written is read as the digits of its byte string, with the readable part in lower
case. Reading accepts the text since nothing in it is in upper case, its last separator is the one
that was put there, no sign being a separator, and the residue is one. -/
theorem decode_of_encode {part text : String} {bs : Bytes} (h : encode part bs = .ok text) :
    decode text = .ok (lowerPart part, digitsOfBytes bs) := by
  obtain ⟨k, hk⟩ := exists_checkReadable h
  obtain ⟨k', hk', hne⟩ := checkReadable_lowerPart hk
  rw [encode, hk] at h
  simp only [bind, Except.bind, lowered_of_checkReadable hk] at h
  rw [← Except.ok.inj h]
  set digits := digitsOfBytes bs
  set sum := checksum (Utf8.encode (lowerPart part)) digits with hsum
  have hlen : (digits ++ sum).length = digits.length + 6 := by
    rw [List.length_append, hsum]
    rfl
  have hseparator : '1' ∉ (digits ++ sum).map sign := by
    intro hmem
    obtain ⟨v, -, hv⟩ := List.mem_map.mp hmem
    exact sign_ne_separator v hv
  have hsound : isSoundResidue
      (residue (spreadPart (Utf8.encode (lowerPart part)) ++ (digits ++ sum))) = true := by
    rw [hsum, residue_append_checksum]
    rfl
  unfold decode
  rw [String.toList_ofList, splitLast_append hseparator]
  simp only [bind, Except.bind, String.ofList_toList, hk', lowered_of_ne hne,
    readDigits_map_sign hne, hlen, hsound, if_true]
  rw [if_neg (by omega), Nat.add_sub_cancel, List.take_left]

end ChainIndex.Bech32
