import ChainIndex.Call
import ChainIndex.Proofs.Text.Hex

/-!
# Data spells calls

The data of a call is the name of its function and its arguments in hexadecimal, with an at sign in
front of each argument (`Call.toData`). The call is read off its data again, whatever its arguments
(`Call.ofData?_toData`).

An argument may be any bytes, the at sign among them, but its hexadecimal text has none. And a name
of several bytes for a character has none either unless it has the character. So the at signs in the
data are those between its parts, and it is split where it was joined.
-/

namespace ChainIndex

namespace Hex

/-- The text of a byte string is read as that byte string. -/
@[simp] theorem decode?_encode (bs : Bytes) : decode? (Utf8.encode (encode bs)) = some bs := by
  rw [decode?, ← decodeText, decodeText_encode]
  rfl

end Hex

namespace Call

/-- A function may have a text for its name: it is not empty, and data does not break it up. -/
def IsName (s : String) : Prop :=
  s ≠ "" ∧ '@' ∉ s.toList

instance (s : String) : Decidable (IsName s) :=
  inferInstanceAs (Decidable (_ ∧ _))

/-- The parts of the data of a call, between its at signs. -/
def texts (call : Call) : List String :=
  call.function :: call.args.map Hex.encode

/-- The data that spells a call. -/
def toData (call : Call) : Bytes :=
  [atSign].intercalate (call.texts.map Utf8.encode)

variable {call : Call}

/-- The data of a call is text. -/
theorem toData_eq_encodeChars (call : Call) :
    call.toData = Utf8.encodeChars (['@'].intercalate (call.texts.map String.toList)) := by
  rw [Utf8.encodeChars_intercalate, List.map_map]
  rfl

theorem atSign_not_mem_encode {s : String} (h : '@' ∉ s.toList) : atSign ∉ Utf8.encode s :=
  fun hmem => h (Utf8.ofNat_mem_of_mem_encodeChars (by decide) hmem)

/-- The at signs of the data are those between its parts. -/
theorem splitOn_toData (h : '@' ∉ call.function.toList) :
    call.toData.splitOn atSign = call.texts.map Utf8.encode := by
  have hparts : ∀ part ∈ call.texts.map Utf8.encode, atSign ∉ part := by
    rw [List.forall_mem_map, texts, List.forall_mem_cons, List.forall_mem_map]
    exact ⟨atSign_not_mem_encode h, fun arg _ =>
      atSign_not_mem_encode (Hex.not_mem_encode (by decide) arg)⟩
  exact List.splitOn_intercalate atSign hparts (List.cons_ne_nil _ _)

/-- A call is read off its data. -/
theorem ofData?_toData (h : IsName call.function) : ofData? call.toData = some call := by
  have htext : (Utf8.decodeChars? call.toData).isNone = false := by
    rw [toData_eq_encodeChars, Utf8.decodeChars?_encodeChars]
    rfl
  have hfunction : (Utf8.encode call.function).isEmpty = false := by
    rw [List.isEmpty_eq_false_iff]
    intro hempty
    have hread := Utf8.lenient_encode call.function
    rw [hempty] at hread
    exact h.1 hread.symm
  have hargs : ((call.args.map Hex.encode).map Utf8.encode).mapM Hex.decode? = some call.args := by
    rw [List.map_map]
    exact mapM_map_eq_some _ _ Hex.decode?_encode call.args
  rw [ofData?, htext, splitOn_toData h.2, texts, List.map_cons]
  dsimp only
  rw [hfunction, hargs, Utf8.lenient_encode]
  rfl

end Call

end ChainIndex
