import ChainIndex.Call.Summary
import ChainIndex.Proofs.Call

/-!
# What reading a call can do

Data tells what it says by itself, unless it calls a function that wraps a transaction
(`CallReader.readWith_cases`). Only then does reading depend on what becomes of wrapped
transactions, and only then is the transaction marked as relayed (`CallReader.read_cases`).

These are the inversions of the reader, and all later proofs about calls go by them: a property of
what is said is shown for each constructor of `CallReader.Says`, and then for wrapped transactions.
No other module unfolds the reader, and a function with arguments of its own would be one more
constructor.
-/

namespace ChainIndex

/-- The function of a call wraps a transaction. -/
def Call.Wraps (call : Call) : Prop :=
  CallKind.ofName call.function = .relayed ∨ CallKind.ofName call.function = .relayedParts

/-- The function of a call is none whose arguments are known. -/
def Call.IsPlain (call : Call) : Prop :=
  CallKind.ofName call.function = .builtin ∨ CallKind.ofName call.function = .contract

variable {call : Call}

theorem Call.Wraps.ne_multiTransfer (h : call.Wraps) :
    CallKind.ofName call.function ≠ .multiTransfer := by
  rcases h with hkind | hkind
  · simp [hkind]
  · simp [hkind]

theorem Call.IsPlain.ne_multiTransfer (h : call.IsPlain) :
    CallKind.ofName call.function ≠ .multiTransfer := by
  rcases h with hkind | hkind
  · simp [hkind]
  · simp [hkind]

namespace CallReader

/-- Data for a receiver calls a function: it spells the call, and the receiver is somebody. -/
structure Calls (r : CallReader) (data receiver : Bytes) (call : Call) : Prop where
  spelled : Call.ofData? data = some call
  somebody : r.addresses.isNobody receiver = false

variable {r : CallReader} {relayed : Call → CallSummary} {data sender receiver : Bytes}

/-- Data calls one function. -/
theorem Calls.unique {call' : Call} (h : r.Calls data receiver call)
    (h' : r.Calls data receiver call') : call = call' :=
  Option.some.inj (h.spelled.symm.trans h'.spelled)

/-! ### By the kind of the function -/

/-- The data that is written for a call calls its function. -/
theorem Calls.of_toData {name : String} (hname : call.function = name) (h : Call.IsName name)
    (hreceiver : r.addresses.isNobody receiver = false) : r.Calls call.toData receiver call :=
  ⟨Call.ofData?_toData (hname ▸ h), hreceiver⟩

/-- What is called for somebody deploys no contract. -/
theorem Calls.not_deploys (h : r.Calls data receiver call) :
    ¬ (!data.isEmpty && r.addresses.isNobody receiver) = true := by
  rw [h.somebody, Bool.and_false]
  exact Bool.false_ne_true

theorem Calls.of_spelled (hcall : Call.ofData? data = some call)
    (h : ¬ (!data.isEmpty && r.addresses.isNobody receiver) = true) :
    r.Calls data receiver call := by
  refine ⟨hcall, ?_⟩
  cases data with
  | nil =>
      have hnone : Call.ofData? [] = none := by decide
      rw [hnone] at hcall
      cases hcall
  | cons b rest => simpa using h

theorem readWith_of_tokenTransfer (h : r.Calls data receiver call)
    (hkind : CallKind.ofName call.function = .tokenTransfer) :
    r.readWith relayed data sender receiver = readTokenTransfer call.args receiver := by
  rw [readWith, if_neg h.not_deploys, h.spelled]
  dsimp only
  rw [hkind]

theorem readWith_of_nftTransfer (h : r.Calls data receiver call)
    (hkind : CallKind.ofName call.function = .nftTransfer) :
    r.readWith relayed data sender receiver = r.readNftTransfer call.args sender receiver := by
  rw [readWith, if_neg h.not_deploys, h.spelled]
  dsimp only
  rw [hkind]

theorem readWith_of_multiTransfer (h : r.Calls data receiver call)
    (hkind : CallKind.ofName call.function = .multiTransfer) :
    r.readWith relayed data sender receiver = r.readMultiTransfer call.args sender receiver := by
  rw [readWith, if_neg h.not_deploys, h.spelled]
  dsimp only
  rw [hkind]

theorem readWith_of_blocking (h : r.Calls data receiver call)
    (hkind : CallKind.ofName call.function = .blocking) :
    r.readWith relayed data sender receiver = readBlocking call := by
  rw [readWith, if_neg h.not_deploys, h.spelled]
  dsimp only
  rw [hkind]

/-- A wrapped call is handed to whoever reads relayed transactions, and nothing of it is read here.
That is a parameter because a transaction inside another one is not opened again. -/
theorem readWith_of_wraps (h : r.Calls data receiver call) (hwraps : call.Wraps) :
    r.readWith relayed data sender receiver = relayed call := by
  rw [readWith, if_neg h.not_deploys, h.spelled]
  dsimp only
  rcases hwraps with hkind | hkind
  · rw [hkind]
  · rw [hkind]

/-! ### What is not relayed -/

theorem isRelayed_readTokenTransfer (args : List Bytes) (receiver : Bytes) :
    (readTokenTransfer args receiver).isRelayed = false := by
  unfold readTokenTransfer
  split
  · dsimp only
    split <;> rfl
  · rfl

theorem isRelayed_readNftTransfer (r : CallReader) (args : List Bytes) (sender receiver : Bytes) :
    (r.readNftTransfer args sender receiver).isRelayed = false := by
  unfold readNftTransfer
  dsimp only
  split
  · rfl
  · split
    · rfl
    · split <;> rfl

theorem isRelayed_readMultiTransfer (r : CallReader) (args : List Bytes)
    (sender receiver : Bytes) : (r.readMultiTransfer args sender receiver).isRelayed = false := by
  unfold readMultiTransfer
  dsimp only
  split <;> rfl

theorem isRelayed_readTokenQuantity (call : Call) :
    (readTokenQuantity call).isRelayed = false := by
  unfold readTokenQuantity
  dsimp only
  split
  · split <;> rfl
  · rfl

theorem isRelayed_readNftQuantity (call : Call) : (readNftQuantity call).isRelayed = false := by
  unfold readNftQuantity
  dsimp only
  split
  · split <;> rfl
  · rfl

theorem isRelayed_readBlocking (call : Call) : (readBlocking call).isRelayed = false := by
  unfold readBlocking
  dsimp only
  split
  · rfl
  · split <;> rfl

/-! ### What is said by itself -/

/-- What data says that wraps no transaction, by the function that it calls. -/
inductive Says (r : CallReader) (data sender receiver : Bytes) : CallSummary → Prop
  | plain (h : ∀ call, r.Calls data receiver call → call.IsPlain) (operation function : String) :
      Says r data sender receiver { operation, function }
  | tokenTransfer {call : Call} (hcalls : r.Calls data receiver call)
      (hkind : CallKind.ofName call.function = .tokenTransfer) :
      Says r data sender receiver (readTokenTransfer call.args receiver)
  | nftTransfer {call : Call} (hcalls : r.Calls data receiver call)
      (hkind : CallKind.ofName call.function = .nftTransfer) :
      Says r data sender receiver (r.readNftTransfer call.args sender receiver)
  | multiTransfer {call : Call} (hcalls : r.Calls data receiver call)
      (hkind : CallKind.ofName call.function = .multiTransfer) :
      Says r data sender receiver (r.readMultiTransfer call.args sender receiver)
  | tokenQuantity {call : Call} (hcalls : r.Calls data receiver call)
      (hkind : CallKind.ofName call.function = .tokenQuantity) :
      Says r data sender receiver (readTokenQuantity call)
  | nftQuantity {call : Call} (hcalls : r.Calls data receiver call)
      (hkind : CallKind.ofName call.function = .nftQuantity) :
      Says r data sender receiver (readNftQuantity call)
  | blocking {call : Call} (hcalls : r.Calls data receiver call)
      (hkind : CallKind.ofName call.function = .blocking) :
      Says r data sender receiver (readBlocking call)

/-- What is said by itself is not relayed. -/
theorem Says.isRelayed_eq_false {said : CallSummary} (h : r.Says data sender receiver said) :
    said.isRelayed = false := by
  cases h with
  | plain => rfl
  | tokenTransfer => exact isRelayed_readTokenTransfer _ _
  | nftTransfer => exact isRelayed_readNftTransfer r _ _ _
  | multiTransfer => exact isRelayed_readMultiTransfer r _ _ _
  | tokenQuantity => exact isRelayed_readTokenQuantity _
  | nftQuantity => exact isRelayed_readNftQuantity _
  | blocking => exact isRelayed_readBlocking _

/-! ### Main results -/

/-- Data wraps a transaction, or it says the same whatever becomes of wrapped ones. What is done
with a wrapped transaction is a parameter here, since opening one is reading again. -/
theorem readWith_cases (r : CallReader) (data sender receiver : Bytes) :
    (∃ call, r.Calls data receiver call ∧ call.Wraps) ∨
      ∃ said, r.Says data sender receiver said ∧
        ∀ relayed, r.readWith relayed data sender receiver = said := by
  -- a deployment first, then data that spells no call, then a call by the kind of its function
  unfold readWith
  by_cases hnobody : (!data.isEmpty && r.addresses.isNobody receiver) = true
  · have hnone : ∀ call, r.Calls data receiver call → call.IsPlain :=
      fun _ hcalls => absurd hnobody hcalls.not_deploys
    exact .inr ⟨_, .plain hnone _ "", fun _ => if_pos hnobody⟩
  · simp only [if_neg hnobody]
    cases hcall : Call.ofData? data with
    | none =>
        have hnone : ∀ call, r.Calls data receiver call → call.IsPlain := by
          intro call hcalls
          rw [hcalls.spelled] at hcall
          cases hcall
        exact .inr ⟨_, .plain hnone _ "", fun _ => rfl⟩
    | some call =>
        have hcalls : r.Calls data receiver call := .of_spelled hcall hnobody
        have hplain : call.IsPlain → ∀ call', r.Calls data receiver call' → call'.IsPlain :=
          fun h call' hcalls' => hcalls.unique hcalls' ▸ h
        dsimp only
        cases hkind : CallKind.ofName call.function with
        | tokenTransfer => exact .inr ⟨_, .tokenTransfer hcalls hkind, fun _ => rfl⟩
        | nftTransfer => exact .inr ⟨_, .nftTransfer hcalls hkind, fun _ => rfl⟩
        | multiTransfer => exact .inr ⟨_, .multiTransfer hcalls hkind, fun _ => rfl⟩
        | tokenQuantity => exact .inr ⟨_, .tokenQuantity hcalls hkind, fun _ => rfl⟩
        | nftQuantity => exact .inr ⟨_, .nftQuantity hcalls hkind, fun _ => rfl⟩
        | blocking => exact .inr ⟨_, .blocking hcalls hkind, fun _ => rfl⟩
        | relayed => exact .inl ⟨call, hcalls, .inl hkind⟩
        | relayedParts => exact .inl ⟨call, hcalls, .inr hkind⟩
        | builtin => exact .inr ⟨_, .plain (hplain (.inl hkind)) _ "", fun _ => rfl⟩
        | contract =>
            by_cases hshown : (isContractKey receiver && isAsciiText call.function) = true
            · exact .inr ⟨_, .plain (hplain (.inr hkind)) _ call.function, fun _ => if_pos hshown⟩
            · exact .inr ⟨_, .plain (hplain (.inr hkind)) _ "", fun _ => if_neg hshown⟩

/-- Data wraps a transaction, which has to be opened to say more than that it is relayed, or there
is nothing to open. -/
theorem read_cases (r : CallReader) (data sender receiver : Bytes) :
    (∃ call, r.Calls data receiver call ∧ call.Wraps ∧
      r.readUnopened data sender receiver = .unread ∧
      r.read data sender receiver = r.readRelayed receiver call) ∨
      ∃ said, r.Says data sender receiver said ∧
        r.readUnopened data sender receiver = said ∧ r.read data sender receiver = said := by
  rcases r.readWith_cases data sender receiver with ⟨call, hcalls, hwraps⟩ | ⟨said, hsays, hsaid⟩
  · exact .inl ⟨call, hcalls, hwraps, readWith_of_wraps hcalls hwraps,
      readWith_of_wraps hcalls hwraps⟩
  · exact .inr ⟨said, hsays, hsaid _, hsaid _⟩

end CallReader

end ChainIndex
