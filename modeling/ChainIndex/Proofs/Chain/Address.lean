import ChainIndex.Chain.Address
import ChainIndex.Proofs.Text.Hex
import Mathlib.Data.List.TakeDrop

/-!
# Addresses of a network have one length

Keys have one length in a network, and so do the texts that can be read as keys, in either encoding
(`AddressFormat.length_of_decode`). So where addresses stand in front of something else, they can be
told from it.

An address may have capitals or not, and a readable part may hold the separator, so nothing but its
length tells where it ends. The length is followed through all layers of the reader: the text has
one character for each digit and each character of the readable part, five bits make a digit, and
fewer than five bits are left over, so that the number of bytes fixes the number of digits.
-/

namespace ChainIndex

namespace Bech32

/-! ### Digits and bytes -/

/-- Bits that are read by eights leave fewer than five over. -/
theorem length_of_eights? {bits : List Bool} {bs : Bytes} (h : eights? bits = some bs) :
    8 * bs.length ≤ bits.length ∧ bits.length < 8 * bs.length + 5 := by
  induction bits using eights?.induct generalizing bs with
  | case1 a b c d e f g i rest ih =>
      rw [eights?, Option.map_eq_some_iff] at h
      obtain ⟨bytes, hbytes, rfl⟩ := h
      have hlen := ih hbytes
      simp only [List.length_cons]
      omega
  | case2 left hshort hleft =>
      rw [eights?.eq_def] at h
      split at h
      · exact absurd rfl (hshort _ _ _ _ _ _ _ _ _)
      · rw [if_pos hleft] at h
        cases h
        simpa using hleft.1
  | case3 left hshort hleft =>
      rw [eights?.eq_def] at h
      split at h
      · exact absurd rfl (hshort _ _ _ _ _ _ _ _ _)
      · rw [if_neg hleft] at h
        cases h

theorem length_flatMap_digitBits (digits : List (BitVec 5)) :
    (digits.flatMap digitBits).length = 5 * digits.length := by
  induction digits with
  | nil => rfl
  | cons v rest ih =>
      rw [List.flatMap_cons, List.length_append, ih, List.length_cons,
        show (digitBits v).length = 5 from rfl]
      omega

/-- The number of digits is that of the bytes, five bits for eight, rounded up. Were five bits left
over, a digit more or less would give the same bytes. -/
theorem length_of_bytesOfDigits? {digits : List (BitVec 5)} {bs : Bytes}
    (h : bytesOfDigits? digits = some bs) : digits.length = (8 * bs.length + 4) / 5 := by
  have hbits := length_flatMap_digitBits digits
  have hlen := length_of_eights? h
  omega

/-! ### The parts of a text -/

/-- A text is cut at the last separator: those in the readable part stay with it. -/
theorem eq_of_splitLast {cs front tail : List Char} (h : splitLast cs = some (front, tail)) :
    ∃ c, cs = front ++ c :: tail := by
  unfold splitLast at h
  split at h
  · cases h
  · next tail' c front' hspan =>
      cases h
      rw [List.span_eq_takeWhile_dropWhile, Prod.mk.injEq] at hspan
      have hcs := List.takeWhile_append_dropWhile (p := (· != '1')) (l := cs.reverse)
      rw [hspan.1, hspan.2] at hcs
      refine ⟨c, ?_⟩
      rw [← List.reverse_reverse cs, ← hcs]
      simp

/-- Every character is a digit or stops the reader, so none is passed over. -/
theorem length_of_readDigits {k : LetterCase} {cs : List Char} {digits : List (BitVec 5)}
    (h : readDigits k cs = .ok digits) : digits.length = cs.length := by
  induction cs generalizing k digits with
  | nil =>
      cases h
      rfl
  | cons c rest ih =>
      rw [readDigits] at h
      split at h
      · cases h
      · split at h
        · cases h
        · next k' _ _ v _ =>
            cases hrest : readDigits k' rest with
            | error fault =>
                rw [hrest] at h
                cases h
            | ok digits =>
                rw [hrest] at h
                cases h
                rw [List.length_cons, List.length_cons, ih hrest]

theorem length_lowered (part : String) (k : LetterCase) :
    (lowered part k).toList.length = part.toList.length := by
  unfold lowered
  split
  · rw [String.toList_ofList, List.length_map]
  · rfl

/-- A text is its readable part, the separator, its digits and the six of the checksum. -/
theorem length_of_decode {text part : String} {digits : List (BitVec 5)}
    (h : decode text = .ok (part, digits)) :
    text.toList.length = part.toList.length + 1 + digits.length + 6 := by
  unfold decode at h
  cases hsplit : splitLast text.toList with
  | none =>
      rw [hsplit] at h
      cases h
  | some parts =>
      obtain ⟨front, tail⟩ := parts
      rw [hsplit] at h
      obtain ⟨c, htext⟩ := eq_of_splitLast hsplit
      cases hk : checkReadable (String.ofList front) with
      | error fault =>
          simp [hk, bind, Except.bind] at h
      | ok k =>
          cases hdigits : readDigits k tail with
          | error fault =>
              simp [hk, hdigits, bind, Except.bind] at h
          | ok all =>
              simp only [hk, hdigits, bind, Except.bind] at h
              split at h
              · cases h
              · split at h
                · cases h
                  have hall := length_of_readDigits hdigits
                  rw [htext, length_lowered, String.toList_ofList, List.length_append,
                    List.length_cons, List.length_take]
                  omega
                · cases h

end Bech32

namespace AddressFormat

/-- The number of characters of an address. -/
def textLength (f : AddressFormat) : Nat :=
  match f.encoding with
  | .hex => 2 * f.length
  | .bech32 => f.readablePart.toList.length + 1 + (8 * f.length + 4) / 5 + 6

/-- In hexadecimal a byte takes two characters; in the other encoding the readable part is that of
the format, or the reader would have stopped. -/
theorem length_of_decodeBytes {f : AddressFormat} {address : String} {key : Bytes}
    (h : f.decodeBytes address = .ok key) (hkey : key.length = f.length) :
    address.toList.length = f.textLength := by
  unfold decodeBytes at h
  unfold textLength
  cases hf : f.encoding with
  | hex =>
      rw [hf] at h
      dsimp only at h ⊢
      cases hhex : Hex.decodeText address with
      | error fault =>
          rw [hhex] at h
          cases h
      | ok bytes =>
          rw [hhex] at h
          cases h
          rw [Hex.length_of_decodeText hhex, hkey]
  | bech32 =>
      rw [hf] at h
      dsimp only at h ⊢
      cases htext : Bech32.decode address with
      | error fault =>
          rw [htext] at h
          cases h
      | ok parts =>
          obtain ⟨part, digits⟩ := parts
          rw [htext] at h
          dsimp only at h
          split at h
          · cases h
          · next hpart =>
              have hpart : part = f.readablePart := Decidable.not_not.mp hpart
              split at h
              · cases h
              · next bytes hbytes =>
                  cases h
                  rw [Bech32.length_of_decode htext, Bech32.length_of_bytesOfDigits? hbytes, hkey,
                    hpart]

/-- What can be read as a key has the length of an address, though it need not be one that the
format writes: hexadecimal text is read in either case. -/
theorem length_of_decode {f : AddressFormat} {address : String} {key : Bytes}
    (h : f.decode address = .ok key) : address.toList.length = f.textLength := by
  unfold decode at h
  cases hbytes : f.decodeBytes address with
  | error e =>
      rw [hbytes] at h
      cases h
  | ok bytes =>
      rw [hbytes] at h
      dsimp only at h
      split at h
      · cases h
      · next hlen => exact length_of_decodeBytes hbytes (Decidable.not_not.mp hlen)

end AddressFormat

end ChainIndex
