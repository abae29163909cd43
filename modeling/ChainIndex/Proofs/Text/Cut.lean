import ChainIndex.Text.Utf8
import Mathlib.Data.String.Basic

/-!
# What is left of a text that is cut

Cutting a text leaves its longest front part that fits, in whole characters (`Text.isFront_cut`). A
text that fits is left as it is, and of two cuts only the shorter one counts (`Text.cut_cut`).

The front parts of a text are in a chain, so the longest one that fits is the only one of its kind
(`Text.IsFront.unique`). That a cut can be repeated, or made after a wider one, is then no matter of
the loop: both sides are the longest front part that fits.
-/

namespace ChainIndex.Text

/-- A text is what a number of bytes leaves of another one. -/
structure IsFront (limit : Nat) (front s : String) : Prop where
  fits : front.utf8ByteSize ≤ limit
  /-- No character is cut in two. -/
  begins : front.toList <+: s.toList
  longest : ∀ t : String, t.toList <+: s.toList → t.utf8ByteSize ≤ limit →
    t.toList <+: front.toList

/-- All of a text that fits is left. -/
theorem isFront_self {limit : Nat} {s : String} (h : s.utf8ByteSize ≤ limit) :
    IsFront limit s s :=
  ⟨h, List.prefix_rfl, fun _ ht _ => ht⟩

theorem utf8Len_cutChars_le (limit : Nat) (cs : List Char) :
    String.utf8Len (cutChars limit cs) ≤ limit := by
  induction cs generalizing limit with
  | nil => exact Nat.zero_le limit
  | cons c cs ih =>
      rw [cutChars]
      split
      · have := ih (limit - c.utf8Size)
        rw [String.utf8Len_cons]
        omega
      · exact Nat.zero_le limit

theorem cutChars_isPrefix (limit : Nat) (cs : List Char) : cutChars limit cs <+: cs := by
  induction cs generalizing limit with
  | nil => exact List.prefix_rfl
  | cons c cs ih =>
      rw [cutChars]
      split
      · exact List.cons_prefix_cons.mpr ⟨rfl, ih _⟩
      · exact ⟨_, rfl⟩

/-- No longer front part fits. -/
theorem isPrefix_cutChars {limit : Nat} {front cs : List Char} (hfront : front <+: cs)
    (hfits : String.utf8Len front ≤ limit) : front <+: cutChars limit cs := by
  induction cs generalizing limit front with
  | nil => exact hfront
  | cons c cs ih =>
      cases front with
      | nil => exact ⟨_, rfl⟩
      | cons d front =>
          obtain ⟨rfl, hrest⟩ := List.cons_prefix_cons.mp hfront
          rw [String.utf8Len_cons] at hfits
          rw [cutChars, if_pos (by omega)]
          exact List.cons_prefix_cons.mpr ⟨rfl, ih hrest (by omega)⟩

/-- A text that fits is not cut. -/
theorem cutChars_of_le {limit : Nat} {cs : List Char} (h : String.utf8Len cs ≤ limit) :
    cutChars limit cs = cs :=
  (cutChars_isPrefix limit cs).eq_of_length_le (isPrefix_cutChars List.prefix_rfl h).length_le

theorem utf8ByteSize_eq_utf8Len (s : String) : s.utf8ByteSize = String.utf8Len s.toList := by
  rw [← String.utf8ByteSize_ofList, String.ofList_toList]

/-- No character takes less than a byte. -/
theorem length_le_utf8ByteSize (s : String) : s.toList.length ≤ s.utf8ByteSize := by
  rw [utf8ByteSize_eq_utf8Len]
  induction s.toList with
  | nil => exact Nat.le_refl 0
  | cons c rest ih =>
      have hpos := c.utf8Size_pos
      rw [List.length_cons, String.utf8Len_cons]
      omega

theorem cut_eq_self {limit : Nat} {s : String} (h : s.utf8ByteSize ≤ limit) : cut limit s = s := by
  rw [cut, cutChars_of_le (utf8ByteSize_eq_utf8Len s ▸ h), String.ofList_toList]

/-- Of a text that is too long, at most three bytes more are lost than have to be: the first
character that does not fit has four at most. -/
theorem lt_utf8Len_cutChars {limit : Nat} {cs : List Char} (h : limit < String.utf8Len cs) :
    limit < String.utf8Len (cutChars limit cs) + 4 := by
  induction cs generalizing limit with
  | nil => exact absurd h (Nat.not_lt_zero limit)
  | cons c cs ih =>
      rw [String.utf8Len_cons] at h
      rw [cutChars]
      split
      · have := ih (show limit - c.utf8Size < String.utf8Len cs by omega)
        rw [String.utf8Len_cons]
        omega
      · have := c.utf8Size_le_four
        omega

theorem lt_utf8ByteSize_cut {limit : Nat} {s : String} (h : limit < s.utf8ByteSize) :
    limit < (cut limit s).utf8ByteSize + 4 := by
  rw [utf8ByteSize_eq_utf8Len] at h
  rw [utf8ByteSize_eq_utf8Len, show (cut limit s).toList = cutChars limit s.toList from
    String.toList_ofList]
  exact lt_utf8Len_cutChars h

/-- Cutting leaves the longest front part that fits. -/
theorem isFront_cut (limit : Nat) (s : String) : IsFront limit (cut limit s) s := by
  have hchars : (cut limit s).toList = cutChars limit s.toList := String.toList_ofList
  constructor
  · rw [utf8ByteSize_eq_utf8Len, hchars]
    exact utf8Len_cutChars_le limit s.toList
  · rw [hchars]
    exact cutChars_isPrefix limit s.toList
  · intro t ht hfits
    rw [utf8ByteSize_eq_utf8Len] at hfits
    rw [hchars]
    exact isPrefix_cutChars ht hfits

/-! ### Cutting what has been cut -/

variable {limit limit' : Nat} {front middle s : String}

/-- Only one front part is the longest that fits. -/
theorem IsFront.unique {front' : String} (h : IsFront limit front s)
    (h' : IsFront limit front' s) : front = front' := by
  have hfront : front.toList <+: front'.toList := h'.longest front h.begins h.fits
  have hfront' : front'.toList <+: front.toList := h.longest front' h'.begins h'.fits
  exact String.toList_inj.mp (hfront.eq_of_length_le hfront'.length_le)

/-- A front part that fits is one of what a larger size leaves. -/
theorem IsFront.trans (h : IsFront limit front middle) (h' : IsFront limit' middle s)
    (hle : limit ≤ limit') : IsFront limit front s where
  fits := h.fits
  begins := h.begins.trans h'.begins
  longest t ht hfits := h.longest t (h'.longest t ht (hfits.trans hle)) hfits

/-- Of two cuts only the shorter one counts. -/
theorem cut_cut (hle : limit ≤ limit') (s : String) : cut limit (cut limit' s) = cut limit s :=
  ((isFront_cut limit _).trans (isFront_cut limit' s) hle).unique (isFront_cut limit s)

end ChainIndex.Text
