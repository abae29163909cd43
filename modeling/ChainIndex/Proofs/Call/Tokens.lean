import ChainIndex.Proofs.Call.Summary
import ChainIndex.Proofs.Text.Ascii
import ChainIndex.Proofs.Text.Hex

/-!
# Which tokens are reported

Whoever reads a token from the arguments of a call drops it unless it is ASCII, except for the
transfer of any number of items, which takes every token as it comes. So all tokens that reading
data reports are ASCII if and only if those are that such transfers move, the one that the data
calls and the one that a wrapped transaction calls (`CallReader.onlyAscii_read_iff`).

The exact condition is stated over the transactions that reading opens, and these are at most two:
one level down nothing more is opened, so a transaction that is wrapped twice adds no token.
-/

namespace ChainIndex

/-! ### Identifiers -/

theorem isAsciiText_append (s t : String) :
    isAsciiText (s ++ t) = (isAsciiText s && isAsciiText t) := by
  rw [isAsciiText, String.toList_append, List.all_append]
  rfl

theorem isAsciiText_encode (bs : Bytes) : isAsciiText (Hex.encode bs) = true :=
  isAsciiText_eq_true_iff.mpr (Hex.forall_mem_encode (by decide) bs)

/-- An item is named in ASCII if its collection is. -/
@[simp] theorem isAsciiText_tokenIdentifier (collection : String) (nonce : UInt64) :
    isAsciiText (tokenIdentifier collection nonce) = isAsciiText collection := by
  have hdash : isAsciiText "-" = true := by decide
  unfold tokenIdentifier
  split
  · rfl
  · rw [isAsciiText_append, isAsciiText_append, isAsciiText_encode, hdash, Bool.and_true,
      Bool.and_true]

/-! ### What each function reports -/

/-- All tokens are named in ASCII. -/
def CallSummary.OnlyAscii (said : CallSummary) : Prop :=
  ∀ token ∈ said.tokens, isAsciiText token = true

theorem CallSummary.onlyAscii_of_tokens_eq_nil {said : CallSummary} (h : said.tokens = []) :
    said.OnlyAscii := by
  rw [OnlyAscii, h]
  exact List.forall_mem_nil _

/-- A token that is dropped unless it passes a check is ASCII if the check tells so. -/
theorem CallSummary.onlyAscii_ite {check : Bool} {said base : CallSummary} {token : String}
    (hsaid : said.tokens = [token]) (hbase : base.tokens = [])
    (hcheck : check = true → isAsciiText token = true) :
    (if check = true then said else base).OnlyAscii := by
  split
  · next h =>
      rw [OnlyAscii, hsaid]
      exact List.forall_mem_singleton.mpr (hcheck h)
  · exact onlyAscii_of_tokens_eq_nil hbase

namespace CallReader

open CallSummary

theorem onlyAscii_readTokenTransfer (args : List Bytes) (receiver : Bytes) :
    (readTokenTransfer args receiver).OnlyAscii := by
  unfold readTokenTransfer
  dsimp only
  split
  · exact onlyAscii_ite rfl rfl (by simp)
  · exact onlyAscii_of_tokens_eq_nil rfl

theorem onlyAscii_readNftTransfer (r : CallReader) (args : List Bytes) (sender receiver : Bytes) :
    (r.readNftTransfer args sender receiver).OnlyAscii := by
  unfold readNftTransfer
  dsimp only
  split
  · exact onlyAscii_of_tokens_eq_nil rfl
  · split
    · exact onlyAscii_of_tokens_eq_nil rfl
    · exact onlyAscii_ite rfl rfl (by simp)

theorem onlyAscii_readTokenQuantity (call : Call) : (readTokenQuantity call).OnlyAscii := by
  unfold readTokenQuantity
  dsimp only
  split
  · exact onlyAscii_ite rfl rfl (by simp)
  · exact onlyAscii_of_tokens_eq_nil rfl

theorem onlyAscii_readNftQuantity (call : Call) : (readNftQuantity call).OnlyAscii := by
  unfold readNftQuantity
  dsimp only
  split
  · exact onlyAscii_ite rfl rfl (by simp)
  · exact onlyAscii_of_tokens_eq_nil rfl

/-- Here the text is checked and not the bytes: they may end in the raw bytes of a nonce. -/
theorem onlyAscii_readBlocking (call : Call) : (readBlocking call).OnlyAscii := by
  unfold readBlocking
  dsimp only
  split
  · exact onlyAscii_of_tokens_eq_nil rfl
  · exact onlyAscii_ite rfl rfl (by simp)

/-- The transfer of any number of items reports their tokens as they come. -/
theorem onlyAscii_readMultiTransfer_iff (r : CallReader) (args : List Bytes)
    (sender receiver : Bytes) :
    (r.readMultiTransfer args sender receiver).OnlyAscii ↔
      ∀ ts, Transfers.ofMultiArgs? args sender receiver = some ts →
        ∀ item ∈ ts.items, Bytes.isAscii item.token = true := by
  unfold readMultiTransfer
  dsimp only
  cases Transfers.ofMultiArgs? args sender receiver with
  | none => exact iff_of_true (onlyAscii_of_tokens_eq_nil rfl) nofun
  | some ts => simp [OnlyAscii]

/-! ### What reading opens -/

/-- The transactions that reading data opens: the one that has the data, and the one that it
wraps. -/
inductive Opens (r : CallReader) (data sender receiver : Bytes) : InnerTransaction → Prop
  | itself : Opens r data sender receiver { receiver, sender, data }
  | wrapped {call : Call} {inner : InnerTransaction} (hcalls : r.Calls data receiver call)
      (hwraps : call.Wraps) (hinner : innerOf? call receiver = some inner) :
      Opens r data sender receiver inner

/-- A transaction calls the transfer of any number of items, with arguments that tell which. -/
def MovesItems (r : CallReader) (opened : InnerTransaction) (ts : Transfers) : Prop :=
  ∃ call, r.Calls opened.data opened.receiver call ∧
    CallKind.ofName call.function = .multiTransfer ∧
    Transfers.ofMultiArgs? call.args opened.sender opened.receiver = some ts

/-- All items that a transaction moves by a transfer of any number of them have ASCII tokens. -/
def MovesOnlyAscii (r : CallReader) (opened : InnerTransaction) : Prop :=
  ∀ ts, r.MovesItems opened ts → ∀ item ∈ ts.items, Bytes.isAscii item.token = true

variable {r : CallReader} {data sender receiver : Bytes} {call : Call} {said : CallSummary}

/-- What calls no such transfer moves nothing in this way. -/
theorem movesOnlyAscii_of_not_calls (h : ∀ call, r.Calls data receiver call →
    CallKind.ofName call.function ≠ .multiTransfer) :
    r.MovesOnlyAscii { receiver, sender, data } := by
  rintro ts ⟨call, hcalls, hmulti, -⟩
  exact absurd hmulti (h call hcalls)

theorem movesOnlyAscii_of_calls (hcalls : r.Calls data receiver call)
    (hkind : CallKind.ofName call.function ≠ .multiTransfer) :
    r.MovesOnlyAscii { receiver, sender, data } :=
  movesOnlyAscii_of_not_calls fun _ hcalls' => hcalls.unique hcalls' ▸ hkind

/-- What calls such a transfer moves what the arguments tell. -/
theorem movesOnlyAscii_iff_of_calls (hcalls : r.Calls data receiver call)
    (hkind : CallKind.ofName call.function = .multiTransfer) :
    r.MovesOnlyAscii { receiver, sender, data } ↔
      ∀ ts, Transfers.ofMultiArgs? call.args sender receiver = some ts →
        ∀ item ∈ ts.items, Bytes.isAscii item.token = true := by
  constructor
  · exact fun h ts hts => h ts ⟨call, hcalls, hkind, hts⟩
  · rintro h ts ⟨call', hcalls', -, hts⟩
    rw [← hcalls.unique hcalls'] at hts
    exact h ts hts

/-- What data says by itself has only ASCII tokens if and only if it moves only such items. -/
theorem Says.onlyAscii_iff (h : r.Says data sender receiver said) :
    said.OnlyAscii ↔ r.MovesOnlyAscii { receiver, sender, data } := by
  cases h with
  | plain h =>
      exact iff_of_true (onlyAscii_of_tokens_eq_nil rfl)
        (movesOnlyAscii_of_not_calls fun call hcalls => (h call hcalls).ne_multiTransfer)
  | tokenTransfer hcalls hkind =>
      exact iff_of_true (onlyAscii_readTokenTransfer _ _)
        (movesOnlyAscii_of_calls hcalls (by simp [hkind]))
  | nftTransfer hcalls hkind =>
      exact iff_of_true (onlyAscii_readNftTransfer _ _ _ _)
        (movesOnlyAscii_of_calls hcalls (by simp [hkind]))
  | multiTransfer hcalls hkind =>
      rw [onlyAscii_readMultiTransfer_iff, movesOnlyAscii_iff_of_calls hcalls hkind]
  | tokenQuantity hcalls hkind =>
      exact iff_of_true (onlyAscii_readTokenQuantity _)
        (movesOnlyAscii_of_calls hcalls (by simp [hkind]))
  | nftQuantity hcalls hkind =>
      exact iff_of_true (onlyAscii_readNftQuantity _)
        (movesOnlyAscii_of_calls hcalls (by simp [hkind]))
  | blocking hcalls hkind =>
      exact iff_of_true (onlyAscii_readBlocking _)
        (movesOnlyAscii_of_calls hcalls (by simp [hkind]))

/-! ### One level -/

/-- What is not opened has no tokens, so where nothing wrapped is opened, only the transfer that
data calls counts. -/
theorem onlyAscii_readUnopened_iff (r : CallReader) (data sender receiver : Bytes) :
    (r.readUnopened data sender receiver).OnlyAscii ↔
      r.MovesOnlyAscii { receiver, sender, data } := by
  rcases r.read_cases data sender receiver with
    ⟨call, hcalls, hwraps, hunopened, -⟩ | ⟨said, hsaid, hunopened, -⟩
  · rw [hunopened]
    exact iff_of_true (onlyAscii_of_tokens_eq_nil rfl)
      (movesOnlyAscii_of_calls hcalls hwraps.ne_multiTransfer)
  · rw [hunopened]
    exact hsaid.onlyAscii_iff

theorem readUnopened_of_isRelayed (h : (r.readUnopened data sender receiver).isRelayed = true) :
    r.readUnopened data sender receiver = .unread := by
  rcases r.read_cases data sender receiver with
    ⟨-, -, -, hunopened, -⟩ | ⟨said, hsaid, hunopened, -⟩
  · exact hunopened
  · rw [hunopened, hsaid.isRelayed_eq_false] at h
    cases h

/-- A relayed call reports the tokens of the transaction that it wraps. -/
theorem tokens_readRelayed {inner : InnerTransaction} (h : innerOf? call receiver = some inner) :
    (r.readRelayed receiver call).tokens =
      (r.readUnopened inner.data inner.sender inner.receiver).tokens := by
  rw [readRelayed, h]
  dsimp only
  split
  · next hrelayed => rw [readUnopened_of_isRelayed hrelayed]
  · split <;> rfl

theorem onlyAscii_readRelayed_iff (r : CallReader) (receiver : Bytes) (call : Call) :
    (r.readRelayed receiver call).OnlyAscii ↔
      ∀ inner, innerOf? call receiver = some inner → r.MovesOnlyAscii inner := by
  cases hinner : innerOf? call receiver with
  | none =>
      rw [readRelayed, hinner]
      exact iff_of_true (onlyAscii_of_tokens_eq_nil rfl) nofun
  | some inner =>
      have hiff := onlyAscii_readUnopened_iff r inner.data inner.sender inner.receiver
      rw [OnlyAscii, ← tokens_readRelayed hinner] at hiff
      rw [OnlyAscii, hiff]
      simp

/-- What says something by itself wraps nothing. -/
theorem Says.not_wraps (h : r.Says data sender receiver said)
    (hunopened : r.readUnopened data sender receiver = said) (hcalls : r.Calls data receiver call) :
    ¬ call.Wraps := by
  intro hwraps
  have hunread : CallSummary.unread = said :=
    (readWith_of_wraps hcalls hwraps).symm.trans hunopened
  have hrelayed := h.isRelayed_eq_false
  rw [← hunread] at hrelayed
  cases hrelayed

/-! ### Main result -/

/-- All tokens that reading data reports are ASCII if and only if each transaction that it opens
moves only such items by a transfer of any number of them: no other function reports a token that
is not ASCII. -/
theorem onlyAscii_read_iff (r : CallReader) (data sender receiver : Bytes) :
    (r.read data sender receiver).OnlyAscii ↔
      ∀ opened, r.Opens data sender receiver opened → r.MovesOnlyAscii opened := by
  rcases r.read_cases data sender receiver with
    ⟨call, hcalls, hwraps, -, hread⟩ | ⟨said, hsaid, hunopened, hread⟩
  · rw [hread, onlyAscii_readRelayed_iff]
    -- the transaction itself wraps, so it is no transfer; what it wraps is all there is to see
    constructor
    · rintro h _ (_ | ⟨hcalls', -, hinner⟩)
      · exact movesOnlyAscii_of_calls hcalls hwraps.ne_multiTransfer
      · rw [← hcalls.unique hcalls'] at hinner
        exact h _ hinner
    · exact fun h inner hinner => h inner (.wrapped hcalls hwraps hinner)
  · rw [hread, hsaid.onlyAscii_iff]
    constructor
    · rintro h _ (_ | ⟨hcalls, hwraps, -⟩)
      · exact h
      · exact absurd hwraps (hsaid.not_wraps hunopened hcalls)
    · exact fun h => h _ .itself

/-- An item whose token is a single letter with an accent. It is reported where it is moved by the
transfer of any number of items and dropped where it is moved by the transfer of one. -/
theorem onlyAscii_read_iff_of_accented_item :
    let r : CallReader := ⟨⟨.hex, "", 1, by decide⟩, ⟨1, by decide⟩⟩
    let many : Call := ⟨"MultiESDTNFTTransfer", [[1], [0xC3, 0xA9], [1], [5]]⟩
    let one : Call := ⟨"ESDTNFTTransfer", [[0xC3, 0xA9], [1], [5]]⟩
    (¬ (r.read many.toData [1] [2]).OnlyAscii ∧ (r.read many.toData [1] [2]).tokens = ["é-01"]) ∧
      (r.read one.toData [1] [2]).OnlyAscii ∧ (r.read one.toData [1] [2]).tokens = [] := by
  intro r many one
  have hmany : r.Calls many.toData [2] many := .of_toData rfl (by decide) (by decide)
  have hone : r.Calls one.toData [2] one := .of_toData rfl (by decide) (by decide)
  refine ⟨⟨?_, by decide +kernel⟩, ?_, by decide +kernel⟩
  · intro h
    have hmoves := (onlyAscii_read_iff r many.toData [1] [2]).mp h _ .itself
    have hitem : r.MovesItems ⟨[2], [1], many.toData⟩
        ⟨[2], "", [⟨[0xC3, 0xA9], 1, "5"⟩]⟩ := ⟨many, hmany, by decide, by decide +kernel⟩
    exact absurd (hmoves _ hitem _ List.mem_cons_self) (by decide)
  · refine (onlyAscii_read_iff r one.toData [1] [2]).mpr ?_
    rintro _ (_ | ⟨hcalls, hwraps, -⟩)
    · exact movesOnlyAscii_of_calls hone (by decide)
    · have hnot : ¬ one.Wraps := by
        unfold Call.Wraps
        decide
      rw [← hone.unique hcalls] at hwraps
      exact absurd hwraps hnot

end CallReader

end ChainIndex
