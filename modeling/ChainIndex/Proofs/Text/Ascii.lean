import ChainIndex.Call.Summary
import ChainIndex.Proofs.Text.Utf8

/-!
# Text of characters below 128

The lenient reading of bytes shows characters below 128 only if all the bytes are below 128
(`isAsciiText_lenient`): what begins with a larger byte becomes a character above them or the
replacement character. So whether bytes are ASCII can be told from their text.

The reader checks each byte against a range that depends on what has begun, and makes the character
only from the last byte. That the character is above 127 is therefore an invariant of the reading
(`Begun.Sound`): whatever bytes in range are still to come, the code point lies past ASCII and is a
valid one. A lead byte makes it true, which is tried for all 256 of them, and every further byte
keeps it, since it only narrows what the code point can be.
-/

namespace ChainIndex

namespace Utf8

/-! ### Characters that have begun -/

/-- A number with room for the six bits of each of some bytes. -/
def shifted : Nat → Nat → Nat
  | 0, value => value
  | more + 1, value => shifted more (value * 0x40)

theorem shifted_le_shifted {value value' : Nat} (h : value ≤ value') (more : Nat) :
    shifted more value ≤ shifted more value' := by
  induction more generalizing value value' with
  | zero => exact h
  | succ more ih => exact ih (Nat.mul_le_mul_right _ h)

/-- The least code point that a begun character can come to: its bytes are the lowest ones. -/
def Begun.least (p : Begun) : Nat :=
  shifted p.more (p.value * 0x40 + (p.low.toNat - 0x80))

/-- The first code point past those that a begun character can come to. -/
def Begun.past (p : Begun) : Nat :=
  shifted p.more (p.value * 0x40 + (p.high.toNat - 0x80) + 1)

/-- Whatever bytes come next, the character that has begun will be a valid one above ASCII. -/
structure Begun.Sound (p : Begun) : Prop where
  above : 0x80 ≤ p.least
  valid : p.past ≤ 0xD800 ∨ 0xDFFF < p.least ∧ p.past ≤ 0x110000

instance (p : Begun) : Decidable p.Sound :=
  decidable_of_iff (_ ∧ _) ⟨fun h => ⟨h.1, h.2⟩, fun h => ⟨h.above, h.valid⟩⟩

/-- What a byte begins is sound. -/
def Lead.Sound : Lead → Prop
  | .begins p => p.Sound
  | _ => True

instance (l : Lead) : Decidable l.Sound :=
  match l with
  | .begins p => inferInstanceAs (Decidable p.Sound)
  | .whole _ | .stray => isTrue trivial

theorem sound_lead (b : UInt8) : (lead b).Sound := by
  have hall : ∀ n < 0x100, (lead (UInt8.ofNat n)).Sound := by decide +kernel
  rw [← UInt8.ofNat_toNat (x := b)]
  exact hall b.toNat b.toNat_lt

variable {p : Begun} {b : UInt8}

/-- One byte more leaves fewer code points to come to. -/
theorem Begun.Sound.more {more low high value} (h : Sound ⟨more + 1, low, high, value⟩)
    (hlow : low ≤ b) (hhigh : b ≤ high) :
    Sound ⟨more, 0x80, 0xBF, value * 0x40 + (b.toNat - 0x80)⟩ := by
  rw [UInt8.le_iff_toNat_le] at hlow hhigh
  -- the six bits to come run from all zeros to all ones
  have hzeros : (0x80 : UInt8).toNat - 0x80 = 0 := by decide
  have hones : (0xBF : UInt8).toNat - 0x80 = 0x3F := by decide
  have hleast : Begun.least ⟨more + 1, low, high, value⟩ ≤
      Begun.least ⟨more, 0x80, 0xBF, value * 0x40 + (b.toNat - 0x80)⟩ := by
    simp only [Begun.least, hzeros, shifted]
    exact shifted_le_shifted (by omega) more
  have hpast : Begun.past ⟨more, 0x80, 0xBF, value * 0x40 + (b.toNat - 0x80)⟩ ≤
      Begun.past ⟨more + 1, low, high, value⟩ := by
    simp only [Begun.past, hones, shifted]
    exact shifted_le_shifted (by omega) more
  -- the range of what can be reached has shrunk from both ends
  obtain ⟨habove, hvalid⟩ := h
  exact ⟨by omega, by omega⟩

/-- The last byte makes a character above ASCII. -/
theorem Begun.Sound.last {low high value} (h : Sound ⟨0, low, high, value⟩) (hlow : low ≤ b)
    (hhigh : b ≤ high) : 0x80 ≤ (Char.ofNat (value * 0x40 + (b.toNat - 0x80))).toNat := by
  rw [UInt8.le_iff_toNat_le] at hlow hhigh
  obtain ⟨habove, hvalid⟩ := h
  simp only [Begun.least, Begun.past, shifted] at habove hvalid
  have hchar : (value * 0x40 + (b.toNat - 0x80)).isValidChar := by
    unfold Nat.isValidChar
    omega
  have hvalue : (Char.ofNat (value * 0x40 + (b.toNat - 0x80))).toNat =
      value * 0x40 + (b.toNat - 0x80) := by
    rw [Char.ofNat, dif_pos hchar]
    rfl
  omega

/-! ### Bytes below 128

The induction over the bytes is from the end: that the rest shows as ASCII tells that no character
has begun in front of it, and that in turn rules out that this byte has begun or completed one. -/

/-- A piece is shown as a character below 128. -/
def IsBelow (piece : Option Char) : Prop :=
  (piece.getD '\uFFFD').toNat < 0x80

theorem not_isBelow_none : ¬ IsBelow none := by
  unfold IsBelow
  decide

theorem sound_start (b : UInt8) : ∀ p ∈ (start b).2, p.Sound := by
  have hsound := sound_lead b
  unfold start
  cases hlead : lead b with
  | whole c => simp
  | begins p => simpa [hlead, Lead.Sound] using hsound
  | stray => simp

theorem lt_of_lead_whole {c : Char} (h : lead b = .whole c) : b.toNat < 0x80 := by
  grind [lead]

/-- Only a byte below 128 completes a character below 128 at once. -/
theorem lt_of_start (hnone : (start b).2 = none) (hbelow : ∀ piece ∈ (start b).1, IsBelow piece) :
    b.toNat < 0x80 := by
  unfold start at hnone hbelow
  cases hlead : lead b with
  | whole c => exact lt_of_lead_whole hlead
  | begins p => simp [hlead] at hnone
  | stray => exact absurd (hbelow none (by simp [hlead])) not_isBelow_none

theorem sound_step {pending : Option Begun} (h : ∀ p ∈ pending, p.Sound) (b : UInt8) :
    ∀ p ∈ (step pending b).2, p.Sound := by
  cases pending with
  | none => exact sound_start b
  | some p =>
      have hp := h p rfl
      obtain ⟨more, low, high, value⟩ := p
      rw [step]
      dsimp only
      split
      · next hrange =>
          cases more with
          | zero => simp
          | succ more =>
              rintro q ⟨⟩
              exact hp.more hrange.1 hrange.2
      · exact sound_start b

/-- A byte that completes only characters below 128 and begins none is such a character. -/
theorem lt_of_step {pending : Option Begun} (h : ∀ p ∈ pending, p.Sound)
    (hnone : (step pending b).2 = none) (hbelow : ∀ piece ∈ (step pending b).1, IsBelow piece) :
    pending = none ∧ b.toNat < 0x80 := by
  cases pending with
  | none => exact ⟨rfl, lt_of_start hnone hbelow⟩
  | some p =>
      -- a byte in range completes a character above ASCII, and any other one cuts it off
      exfalso
      have hp := h p rfl
      obtain ⟨more, low, high, value⟩ := p
      rw [step] at hnone hbelow
      dsimp only at hnone hbelow
      split at hnone
      · next hrange =>
          rw [if_pos hrange] at hbelow
          cases more with
          | zero =>
              have hchar := hbelow _ List.mem_cons_self
              rw [IsBelow, Option.getD_some] at hchar
              exact Nat.not_lt_of_le (hp.last hrange.1 hrange.2) hchar
          | succ more => cases hnone
      · next hrange =>
          rw [if_neg hrange] at hbelow
          exact not_isBelow_none (hbelow none List.mem_cons_self)

/-- Bytes that show as characters below 128 are below 128, and no character has begun in front of
them. -/
theorem lt_of_piecesFrom {bs : Bytes} {pending : Option Begun} (h : ∀ p ∈ pending, p.Sound)
    (hbelow : ∀ piece ∈ piecesFrom pending bs, IsBelow piece) :
    pending = none ∧ ∀ b ∈ bs, b.toNat < 0x80 := by
  induction bs generalizing pending with
  | nil =>
      cases pending with
      | none => exact ⟨rfl, List.forall_mem_nil _⟩
      | some p => exact absurd (hbelow none List.mem_cons_self) not_isBelow_none
  | cons b rest ih =>
      rw [piecesFrom, List.forall_mem_append] at hbelow
      obtain ⟨hnone, hrest⟩ := ih (sound_step h b) hbelow.2
      obtain ⟨hpending, hb⟩ := lt_of_step h hnone hbelow.1
      exact ⟨hpending, List.forall_mem_cons.mpr ⟨hb, hrest⟩⟩

theorem toNat_ofNat_of_ascii {n : Nat} (h : n < 0x80) : (Char.ofNat n).toNat = n := by
  have hvalid : n.isValidChar := .inl (Nat.lt_trans h (by decide))
  rw [Char.ofNat, dif_pos hvalid]
  rfl

/-- Bytes below 128 are read as a character each. -/
theorem pieces_of_ascii {bs : Bytes} (h : ∀ b ∈ bs, b.toNat < 0x80) :
    pieces bs = bs.map fun b => some (Char.ofNat b.toNat) := by
  unfold pieces
  induction bs with
  | nil => rfl
  | cons b rest ih =>
      rw [List.forall_mem_cons] at h
      have hlead := lead_whole b.toNat h.1
      rw [UInt8.ofNat_toNat] at hlead
      rw [piecesFrom_of_whole hlead, ih h.2, List.map_cons]

end Utf8

/-! ### Texts -/

theorem isAsciiText_eq_true_iff {s : String} :
    isAsciiText s = true ↔ ∀ c ∈ s.toList, c.toNat < 0x80 := by
  simp [isAsciiText]

theorem Bytes.isAscii_eq_true_iff {bs : Bytes} :
    Bytes.isAscii bs = true ↔ ∀ b ∈ bs, b.toNat < 0x80 := by
  simp only [Bytes.isAscii, List.all_eq_true, decide_eq_true_eq, UInt8.lt_iff_toNat_lt]
  rfl

/-- Whether bytes are ASCII can be told from their text. -/
@[simp] theorem isAsciiText_lenient (bs : Bytes) :
    isAsciiText (Utf8.lenient bs) = Bytes.isAscii bs := by
  rw [Bool.eq_iff_iff, isAsciiText_eq_true_iff, Bytes.isAscii_eq_true_iff, Utf8.lenient,
    String.toList_ofList, List.forall_mem_map]
  constructor
  · intro h
    exact (Utf8.lt_of_piecesFrom (by simp) h).2
  · intro h
    rw [Utf8.pieces_of_ascii h]
    simp only [List.mem_map]
    rintro _ ⟨b, hb, rfl⟩
    rw [Option.getD_some, Utf8.toNat_ofNat_of_ascii (h b hb)]
    exact h b hb

/-- Texts and their bytes are ASCII alike. -/
@[simp] theorem Bytes.isAscii_encode (s : String) :
    Bytes.isAscii (Utf8.encode s) = isAsciiText s := by
  rw [← isAsciiText_lenient, Utf8.lenient_encode]

end ChainIndex
