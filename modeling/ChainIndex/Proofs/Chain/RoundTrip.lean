import ChainIndex.Chain.Address
import ChainIndex.Proofs.Text.Bech32
import ChainIndex.Proofs.Text.Hex

/-!
# Addresses are read back

The address of a key is read as that key, in either encoding, and no two keys have one address
(`AddressFormat.decode_of_encode_iff`). There is one exception: bech32 text is written in lower case
and compared as it is, so a format whose readable part has a letter in upper case refuses every
address that it writes.

Reading needs no knowledge of what the two encodings do beyond their own lemmas: hexadecimal text
gives the bytes back, and bech32 text gives the readable part in lower case and the digits of the
bytes. The exception is the comparison of that part, and so the condition is about that part alone.
-/

namespace ChainIndex.AddressFormat

/-- The readable part of a format, if its encoding has one, is in lower case already. -/
def ReadsBack (f : AddressFormat) : Prop :=
  f.encoding = .bech32 → ∀ c ∈ f.readablePart.toList, c.isUpper = false

variable {f : AddressFormat} {key : Bytes} {text : String}

/-- An address spells its key in the encoding of the format, and the key has the length of all
keys. -/
theorem of_encode (h : f.encode key = .ok text) :
    key.length = f.length ∧
      match f.encoding with
      | .hex => text = Hex.encode key
      | .bech32 => Bech32.encode f.readablePart key = .ok text := by
  unfold encode at h
  split at h
  · cases h
  · next hlen =>
      refine ⟨Decidable.not_not.mp hlen, ?_⟩
      cases hf : f.encoding with
      | hex =>
          rw [hf] at h
          exact (Except.ok.inj h).symm
      | bech32 =>
          rw [hf] at h
          dsimp only at h ⊢
          cases hbech : Bech32.encode f.readablePart key with
          | error fault =>
              rw [hbech] at h
              cases h
          | ok s =>
              rw [hbech] at h
              exact congrArg Except.ok (Except.ok.inj h)

/-- Bytes of the length of a key are a key. -/
theorem decode_of_decodeBytes {bs : Bytes} (h : f.decodeBytes text = .ok bs)
    (hlen : bs.length = f.length) : f.decode text = .ok bs := by
  rw [decode, h]
  exact if_neg (not_not_intro hlen)

theorem decode_of_decodeBytes_error {e : Error} (h : f.decodeBytes text = .error e) :
    f.decode text = .error e := by
  rw [decode, h]

/-- The address of a key is read as that key, if the format reads back what it writes. -/
theorem decode_of_readsBack (h : f.encode key = .ok text) (hf : f.ReadsBack) :
    f.decode text = .ok key := by
  obtain ⟨hlen, htext⟩ := of_encode h
  refine decode_of_decodeBytes ?_ hlen
  unfold decodeBytes
  cases henc : f.encoding with
  | hex =>
      rw [henc] at htext
      dsimp only at htext ⊢
      rw [htext, Hex.decodeText_encode]
      rfl
  | bech32 =>
      rw [henc] at htext
      dsimp only at htext ⊢
      have hlower : Bech32.lowerPart f.readablePart = f.readablePart :=
        Bech32.lowerPart_eq_iff.mpr (hf henc)
      rw [Bech32.decode_of_encode htext]
      dsimp only
      rw [if_neg (not_not_intro hlower), Bech32.bytesOfDigits?_digitsOfBytes]

/-- A format that does not read back what it writes refuses every address that it writes. -/
theorem decode_of_not_readsBack (h : f.encode key = .ok text) (hf : ¬ f.ReadsBack) :
    f.decode text = .error (.invalidInput
      ("unexpected address prefix " ++ Bech32.lowerPart f.readablePart)) := by
  obtain ⟨henc, hupper⟩ := Classical.not_imp.mp hf
  have htext := (of_encode h).2
  rw [henc] at htext
  have hlower : Bech32.lowerPart f.readablePart ≠ f.readablePart := fun hsame =>
    hupper (Bech32.lowerPart_eq_iff.mp hsame)
  refine decode_of_decodeBytes_error ?_
  unfold decodeBytes
  rw [henc]
  dsimp only at htext ⊢
  rw [Bech32.decode_of_encode htext]
  exact if_pos hlower

/-- No two keys have one address. This holds of formats that do not read back as well, so it is
shown from the digits of the text and not by reading it. -/
theorem eq_of_encode {key' : Bytes} (h : f.encode key = .ok text)
    (h' : f.encode key' = .ok text) : key' = key := by
  have htext := (of_encode h).2
  have htext' := (of_encode h').2
  cases henc : f.encoding with
  | hex =>
      rw [henc] at htext htext'
      exact Hex.encode_injective (htext'.symm.trans htext)
  | bech32 =>
      rw [henc] at htext htext'
      have hread := (Bech32.decode_of_encode htext').symm.trans (Bech32.decode_of_encode htext)
      have hdigits := congrArg Bech32.bytesOfDigits? (Prod.mk.inj (Except.ok.inj hread)).2
      rw [Bech32.bytesOfDigits?_digitsOfBytes, Bech32.bytesOfDigits?_digitsOfBytes] at hdigits
      exact Option.some.inj hdigits

/-- The address of a key is read as that key if and only if the readable part has no letter in upper
case, and otherwise it is refused for its readable part. In any case it is the address of no other
key. -/
theorem decode_of_encode_iff (h : f.encode key = .ok text) :
    (f.decode text = .ok key ↔ f.ReadsBack) ∧
      (¬ f.ReadsBack → f.decode text = .error (.invalidInput
        ("unexpected address prefix " ++ Bech32.lowerPart f.readablePart))) ∧
      ∀ key', f.encode key' = .ok text → key' = key := by
  refine ⟨⟨fun hread => ?_, decode_of_readsBack h⟩, decode_of_not_readsBack h,
    fun _ => eq_of_encode h⟩
  by_contra hf
  rw [decode_of_not_readsBack h hf] at hread
  cases hread

/-- With a readable part in capitals, an address is written and not read. -/
theorem decode_of_encode_iff_of_capitals :
    let f : AddressFormat := ⟨.bech32, "ERD", 1, by decide⟩
    f.encode [7] = .ok "erd1qu62y4hr" ∧ ¬ f.ReadsBack ∧
      f.decode "erd1qu62y4hr" = .error (.invalidInput "unexpected address prefix erd") := by
  intro f
  have hwritten : f.encode [7] = .ok "erd1qu62y4hr" := by decide +kernel
  have hupper : ¬ f.ReadsBack := fun hf => absurd (hf rfl 'E' (by decide)) (by decide)
  have hmessage : "unexpected address prefix " ++ Bech32.lowerPart f.readablePart =
      "unexpected address prefix erd" := by decide
  exact ⟨hwritten, hupper, hmessage ▸ (decode_of_encode_iff hwritten).2.1 hupper⟩

end ChainIndex.AddressFormat
