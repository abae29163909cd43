import ChainIndex.Number.Digits

/-!
# The digits of a number

The digits of a natural number are read as that number (`Digits.magnitude?_toDigits`), and a zero
stands in front of them only if it is all there is (`Digits.head?_toDigits`). The reader of amounts
also takes underscores between digits, and the reader of JSON refuses leading zeros, so both lemmas
are needed to see that what has been printed is read again.
-/

namespace ChainIndex.Digits

theorem isDigit_of_mem_toDigits {n : Nat} {c : Char} (h : c ∈ Nat.toDigits 10 n) : c.isDigit :=
  Nat.isDigit_of_mem_toDigits (by decide) (by decide) h

theorem magnitudeFrom_eq_ofDigitChars {cs : List Char} (h : ∀ c ∈ cs, c.isDigit) (n : Nat) :
    magnitudeFrom n cs = some (Nat.ofDigitChars 10 cs n) := by
  induction cs generalizing n with
  | nil => rfl
  | cons c rest ih =>
      rw [List.forall_mem_cons] at h
      obtain ⟨hc, hrest⟩ := h
      have hunderscore : c ≠ '_' := by
        rintro rfl
        exact absurd hc (by decide)
      rw [magnitudeFrom, if_neg hunderscore, value?, if_pos hc, Option.bind_some, ih hrest,
        Nat.ofDigitChars_cons]
      rfl

/-- The digits of a number are read as that number. -/
theorem magnitude?_toDigits (n : Nat) : magnitude? (Nat.toDigits 10 n) = some n := by
  have hdigits : ∀ c ∈ Nat.toDigits 10 n, c.isDigit := fun c hc => isDigit_of_mem_toDigits hc
  have hvalue : Nat.ofDigitChars 10 (Nat.toDigits 10 n) 0 = n := Nat.ofDigitChars_ten_toDigits
  cases hchars : Nat.toDigits 10 n with
  | nil => exact absurd hchars Nat.toDigits_ne_nil
  | cons c rest =>
      rw [hchars] at hdigits hvalue
      have hunderscore : c ≠ '_' := by
        rintro rfl
        exact absurd (hdigits _ List.mem_cons_self) (by decide)
      rw [magnitude?, if_neg hunderscore, magnitudeFrom_eq_ofDigitChars hdigits, hvalue]

/-- No number but zero begins with a zero. -/
theorem head?_toDigits {n : Nat} (h : n ≠ 0) : (Nat.toDigits 10 n).head? ≠ some '0' := by
  -- the last digit is split off: the front of a larger number is that of a tenth of it
  induction n using Nat.strongRecOn with
  | _ n ih =>
      by_cases hsmall : n < 10
      · rw [Nat.toDigits_of_lt_base hsmall]
        simpa using h
      · have hfront : (Nat.toDigits 10 (n / 10)).head?.isSome :=
          List.isSome_head?.mpr Nat.toDigits_ne_nil
        rw [Nat.toDigits_of_base_le (by decide) (by omega), List.head?_append,
          Option.or_of_isSome hfront]
        exact ih (n / 10) (by omega) (by omega)

end ChainIndex.Digits
