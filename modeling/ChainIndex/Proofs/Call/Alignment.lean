import ChainIndex.Proofs.Call.Tokens

/-!
# Which lists of a summary belong together

A summary lists tokens, values, receivers and the shards of the receivers, and whoever shows it
takes them by position. `CallSummary.IsAligned` says which of them have one length. It holds of
everything that reading data says (`CallReader.isAligned_read`): each routine fills the lists
together or leaves them empty, and opening a relayed transaction replaces receivers and shards
together.

What a routine fills depends on its function, so the condition is stated by the name of the
operation. There are four shapes of a summary, one lemma for each (`isAligned_of_bare` and those
below it), and each routine ends in one of them.
-/

namespace ChainIndex

/-- The functions by which an owner holds somebody's tokens. -/
def blockingNames : List String :=
  ["ESDTWipe", "ESDTFreeze", "ESDTUnFreeze"]

theorem CallKind.ofName_eq_blocking_iff {name : String} :
    CallKind.ofName name = .blocking ↔ name ∈ blockingNames := by
  constructor
  · intro h
    unfold CallKind.ofName at h
    -- every named kind is decided by its names; the rest is a function of the protocol or not
    split at h
    case h_6 | h_7 | h_8 => simp [blockingNames]
    case h_14 => split at h <;> cases h
    all_goals cases h
  · intro h
    rw [blockingNames, List.mem_cons, List.mem_cons, List.mem_singleton] at h
    rcases h with rfl | rfl | rfl <;> rfl

/-- The transfers of items have kinds of their own. -/
theorem CallKind.ofName_of_isNftTransferName {name : String} (h : isNftTransferName name = true) :
    CallKind.ofName name = .nftTransfer ∨ CallKind.ofName name = .multiTransfer := by
  rw [isNftTransferName, Bool.or_eq_true, beq_iff_eq, beq_iff_eq] at h
  rcases h with rfl | rfl
  · exact .inl rfl
  · exact .inr rfl

namespace CallSummary

/-- The lists of a summary belong together: a shard for each receiver, and a value for each token
unless tokens are held, where at most one token stands without a value. A transfer of items has a
receiver for each token. -/
structure IsAligned (said : CallSummary) : Prop where
  shards : said.receivers.length = said.receiverShards.length
  values : said.operation ∉ blockingNames → said.values.length = said.tokens.length
  held : said.operation ∈ blockingNames → said.values = [] ∧ said.tokens.length ≤ 1
  items : isNftTransferName said.operation = true → said.receivers.length = said.tokens.length

variable {said : CallSummary}

/-- A summary that lists nothing. -/
theorem isAligned_of_bare (htokens : said.tokens = []) (hvalues : said.values = [])
    (hreceivers : said.receivers = []) (hshards : said.receiverShards = []) : said.IsAligned := by
  constructor
  · rw [hreceivers, hshards]
    rfl
  · intro _
    rw [hvalues, htokens]
  · intro _
    rw [htokens]
    exact ⟨hvalues, Nat.zero_le _⟩
  · intro _
    rw [hreceivers, htokens]

theorem isAligned_ofOperation (operation : String) : (ofOperation operation).IsAligned :=
  isAligned_of_bare rfl rfl rfl rfl

/-- A summary that lists a token with its value and nobody else. -/
theorem isAligned_of_amount (hheld : CallKind.ofName said.operation ≠ .blocking)
    (hitems : isNftTransferName said.operation = false)
    (hvalues : said.values.length = said.tokens.length) (hreceivers : said.receivers = [])
    (hshards : said.receiverShards = []) : said.IsAligned := by
  constructor
  · rw [hreceivers, hshards]
    rfl
  · exact fun _ => hvalues
  · exact fun h => absurd (CallKind.ofName_eq_blocking_iff.mpr h) hheld
  · intro h
    rw [hitems] at h
    cases h

/-- A summary that lists items, each with its value, its receiver and the shard of that. -/
theorem isAligned_of_items (hheld : CallKind.ofName said.operation ≠ .blocking)
    (hvalues : said.values.length = said.tokens.length)
    (hreceivers : said.receivers.length = said.tokens.length)
    (hshards : said.receiverShards.length = said.tokens.length) : said.IsAligned := by
  constructor
  · rw [hreceivers, hshards]
  · exact fun _ => hvalues
  · exact fun h => absurd (CallKind.ofName_eq_blocking_iff.mpr h) hheld
  · exact fun _ => hreceivers

/-- A summary that lists at most a token that is held. -/
theorem isAligned_of_held (hheld : CallKind.ofName said.operation = .blocking)
    (htokens : said.tokens.length ≤ 1) (hvalues : said.values = [])
    (hreceivers : said.receivers = []) (hshards : said.receiverShards = []) : said.IsAligned := by
  constructor
  · rw [hreceivers, hshards]
    rfl
  · exact fun h => absurd (CallKind.ofName_eq_blocking_iff.mp hheld) h
  · exact fun _ => ⟨hvalues, htokens⟩
  · intro h
    rcases CallKind.ofName_of_isNftTransferName h with hkind | hkind
    · rw [hkind] at hheld
      cases hheld
    · rw [hkind] at hheld
      cases hheld

end CallSummary

/-- A function that transfers no items is no transfer of items by its name either. -/
theorem isNftTransferName_eq_false {name : String} (hone : CallKind.ofName name ≠ .nftTransfer)
    (hmany : CallKind.ofName name ≠ .multiTransfer) : isNftTransferName name = false := by
  rw [Bool.eq_false_iff]
  intro h
  rcases CallKind.ofName_of_isNftTransferName h with hkind | hkind
  · exact hone hkind
  · exact hmany hkind

namespace CallReader

open CallSummary

/-! ### What each function lists -/

theorem isAligned_readTokenTransfer (args : List Bytes) (receiver : Bytes) :
    (readTokenTransfer args receiver).IsAligned := by
  have hheld : CallKind.ofName CallKind.tokenTransferName ≠ .blocking := by decide
  have hitems : isNftTransferName CallKind.tokenTransferName = false := by decide
  unfold readTokenTransfer
  dsimp only
  split
  · split
    · exact isAligned_of_amount hheld hitems rfl rfl rfl
    · exact isAligned_ofOperation _
  · exact isAligned_ofOperation _

theorem isAligned_readNftTransfer (r : CallReader) (args : List Bytes) (sender receiver : Bytes) :
    (r.readNftTransfer args sender receiver).IsAligned := by
  have hheld : CallKind.ofName CallKind.nftTransferName ≠ .blocking := by decide
  unfold readNftTransfer
  dsimp only
  split
  · exact isAligned_ofOperation _
  · split
    · exact isAligned_ofOperation _
    · split
      · exact isAligned_of_items hheld rfl rfl rfl
      · exact isAligned_ofOperation _

theorem isAligned_readMultiTransfer (r : CallReader) (args : List Bytes)
    (sender receiver : Bytes) : (r.readMultiTransfer args sender receiver).IsAligned := by
  have hheld : CallKind.ofName CallKind.multiTransferName ≠ .blocking := by decide
  unfold readMultiTransfer
  dsimp only
  split
  · exact isAligned_ofOperation _
  · next ts hts =>
      refine isAligned_of_items hheld ?_ ?_ ?_
      · rw [List.length_map, List.length_map]
      · rw [List.length_map, List.length_map]
      · rw [List.length_map, List.length_map]

/-- A change of a supply is no transfer of items, and it holds nothing. -/
theorem isAligned_readTokenQuantity {call : Call}
    (hkind : CallKind.ofName call.function = .tokenQuantity) :
    (readTokenQuantity call).IsAligned := by
  have hitems : isNftTransferName call.function = false :=
    isNftTransferName_eq_false (by simp [hkind]) (by simp [hkind])
  have hheld : CallKind.ofName call.function ≠ .blocking := by simp [hkind]
  unfold readTokenQuantity
  dsimp only
  split
  · split
    · exact isAligned_of_amount hheld hitems rfl rfl rfl
    · exact isAligned_ofOperation _
  · exact isAligned_ofOperation _

theorem isAligned_readNftQuantity {call : Call}
    (hkind : CallKind.ofName call.function = .nftQuantity) : (readNftQuantity call).IsAligned := by
  have hitems : isNftTransferName call.function = false :=
    isNftTransferName_eq_false (by simp [hkind]) (by simp [hkind])
  have hheld : CallKind.ofName call.function ≠ .blocking := by simp [hkind]
  unfold readNftQuantity
  dsimp only
  split
  · split
    · exact isAligned_of_amount hheld hitems rfl rfl rfl
    · exact isAligned_ofOperation _
  · exact isAligned_ofOperation _

theorem isAligned_readBlocking {call : Call}
    (hkind : CallKind.ofName call.function = .blocking) : (readBlocking call).IsAligned := by
  unfold readBlocking
  dsimp only
  split
  · exact isAligned_ofOperation _
  · split
    · exact isAligned_of_held hkind (Nat.le_refl 1) rfl rfl rfl
    · exact isAligned_ofOperation _

variable {r : CallReader} {data sender receiver : Bytes} {call : Call} {said : CallSummary}

/-- What data says by itself is aligned. -/
theorem Says.isAligned (h : r.Says data sender receiver said) : said.IsAligned := by
  cases h with
  | plain => exact isAligned_of_bare rfl rfl rfl rfl
  | tokenTransfer => exact isAligned_readTokenTransfer _ _
  | nftTransfer => exact isAligned_readNftTransfer r _ _ _
  | multiTransfer => exact isAligned_readMultiTransfer r _ _ _
  | tokenQuantity _ hkind => exact isAligned_readTokenQuantity hkind
  | nftQuantity _ hkind => exact isAligned_readNftQuantity hkind
  | blocking _ hkind => exact isAligned_readBlocking hkind

/-! ### Relayed transactions -/

theorem isAligned_unread : CallSummary.unread.IsAligned :=
  isAligned_of_bare rfl rfl rfl rfl

theorem isAligned_readUnopened (r : CallReader) (data sender receiver : Bytes) :
    (r.readUnopened data sender receiver).IsAligned := by
  rcases r.read_cases data sender receiver with
    ⟨-, -, -, hunopened, -⟩ | ⟨said, hsaid, hunopened, -⟩
  · rw [hunopened]
    exact isAligned_unread
  · rw [hunopened]
    exact hsaid.isAligned

/-- Receivers and shards are replaced together, and only where no items are transferred. -/
theorem isAligned_readRelayed (r : CallReader) (receiver : Bytes) (call : Call) :
    (r.readRelayed receiver call).IsAligned := by
  unfold readRelayed
  split
  · exact isAligned_unread
  · next inner hinner =>
      have hsaid := isAligned_readUnopened r inner.data inner.sender inner.receiver
      dsimp only
      split
      · exact isAligned_unread
      -- a transfer of items keeps its own receivers, so that each of them has its token
      · split
        · exact ⟨hsaid.shards, hsaid.values, hsaid.held, hsaid.items⟩
        · next hitems => exact ⟨rfl, hsaid.values, hsaid.held, fun h => absurd h hitems⟩

/-! ### Main result -/

/-- Whatever data says, the lists of the summary belong together. -/
theorem isAligned_read (r : CallReader) (data sender receiver : Bytes) :
    (r.read data sender receiver).IsAligned := by
  rcases r.read_cases data sender receiver with ⟨call, -, -, -, hread⟩ | ⟨said, hsaid, -, hread⟩
  · rw [hread]
    exact isAligned_readRelayed r receiver call
  · rw [hread]
    exact hsaid.isAligned

end CallReader

end ChainIndex
