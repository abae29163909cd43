import ChainIndex.Settlement.Outcome

/-!
# What results tell

A result tells by its data or its message that the first transaction has succeeded or failed, or
that items are still on their way. `FailsBy` and `IsCharged` say when results make a transaction
fail and when they make it pay for its whole gas limit. `outcome_withOutcome` is all that drawing
the outcome can do to a transaction: one constructor of `Outcome` for each way out.

The program tests one thing after another and leaves at the first that holds, so each way out stands
for the tests in front of it as well. `FailsBy` and `IsCharged` gather these conditions without the
order. To fail is to be charged and more (`FailsBy.isCharged`). A transaction is charged without
failing where some result is still on its way, or where none tells of a failure.
-/

namespace ChainIndex

theorem Bytes.hasPart_eq_true_iff {part bs : Bytes} :
    Bytes.hasPart part bs = true ↔ part <:+: bs := by
  induction bs with
  | nil => rw [Bytes.hasPart, List.isEmpty_iff, List.infix_nil]
  | cons b rest ih =>
      rw [Bytes.hasPart, Bool.or_eq_true, List.isPrefixOf_iff_prefix, ih, List.infix_cons_iff]

/-! ### What one result tells

The tests of the program are about bytes and parts of bytes. Each of them is met here by a property
that says what is looked for. -/

namespace ContractResult

variable {r : ContractResult}

/-- The data has a mark of success. -/
def TellsSuccess (r : ContractResult) : Prop :=
  Utf8.encode "@6f6b" <:+: r.data ∨ Utf8.encode "@ok" <:+: r.data

/-- The message is a code of failure, or the data has the mark of one. -/
def TellsFailure (r : ContractResult) : Prop :=
  ∃ code ∈ errorCodes, r.returnMessage = code ∨ errorMark code <:+: r.data

/-- The data spells a transfer of items with at least one argument, and the shards differ. -/
def IsCrossing (r : ContractResult) : Prop :=
  (∃ name first rest, dataParts r.data = name :: first :: rest ∧
    (name = CallKind.nftTransferName ∨ name = CallKind.multiTransferName)) ∧
    r.senderShard ≠ r.receiverShard

/-- The data spells a transfer of items with at least three arguments, of which the last one is the
code for an error of the user. -/
def GivesItemsBack (r : ContractResult) : Prop :=
  ∃ name args, dataParts r.data = name :: args ∧
    (name = CallKind.nftTransferName ∨ name = CallKind.multiTransferName) ∧
    3 ≤ args.length ∧ args.getLast? = some (Hex.encode (Utf8.encode "user error"))

theorem isOk_eq_true_iff : r.isOk = true ↔ r.TellsSuccess := by
  simp [isOk, okMarks, TellsSuccess, Bytes.hasPart_eq_true_iff]

theorem isFailure_eq_true_iff : r.isFailure = true ↔ r.TellsFailure := by
  rw [isFailure, List.any_eq_true]
  simp only [Bool.or_eq_true, beq_iff_eq, Bytes.hasPart_eq_true_iff]
  rfl

theorem isPendingTransfer_eq_true_iff : r.isPendingTransfer = true ↔ r.IsCrossing := by
  rw [isPendingTransfer, Bool.and_eq_true, bne_iff_ne, IsCrossing]
  refine and_congr_left fun _ => ?_
  rw [isNftTransferData]
  rcases hparts : dataParts r.data with _ | ⟨name, _ | ⟨first, rest⟩⟩
  · simp
  · simp
  · simp [isNftTransferName]

theorem isFailedTransfer_eq_true_iff : r.isFailedTransfer = true ↔ r.GivesItemsBack := by
  rw [isFailedTransfer, Bool.and_eq_true, beq_iff_eq, isNftTransferData, GivesItemsBack]
  rcases hparts : dataParts r.data with _ | ⟨name, _ | ⟨first, rest⟩⟩
  · simp
  · simp
  · simp [isNftTransferName]
    grind

example : Hex.encode (Utf8.encode "user error") = "75736572206572726f72" := by decide

end ContractResult

/-! ### What results tell together -/

/-- Results report that the transaction with some data has failed: the data wraps no other
transaction, no result tells success or is on its way to another shard, and one tells failure. -/
structure FailsBy (data : Bytes) (results : List ContractResult) : Prop where
  unwrapped : ¬ relayedMark <+: data
  unmarked : ∀ r ∈ results, ¬ r.TellsSuccess
  arrived : ∀ r ∈ results, ¬ r.IsCrossing
  told : ∃ r ∈ results, r.TellsFailure

/-- Results make the transaction with some data pay for its whole gas limit: there are some, none
tells success, and the data wraps no other transaction. -/
structure IsCharged (data : Bytes) (results : List ContractResult) : Prop where
  nonempty : results ≠ []
  unwrapped : ¬ relayedMark <+: data
  unmarked : ∀ r ∈ results, ¬ r.TellsSuccess

theorem FailsBy.isCharged {data : Bytes} {results : List ContractResult}
    (hf : FailsBy data results) : IsCharged data results := by
  obtain ⟨r, hr, -⟩ := hf.told
  exact ⟨List.ne_nil_of_mem hr, hf.unwrapped, hf.unmarked⟩

/-! ### The outcome of a transaction -/

/-- What drawing the outcome makes of a transaction. -/
inductive Outcome (n : Network) (t : Transaction) : Transaction → Prop
  | alone (nothing : t.results = []) : Outcome n t t
  | kept (some : t.results ≠ []) (why : t.status = .invalid ∨ ¬ IsCharged t.data t.results) :
      Outcome n t { t with hasResults := true }
  | charged (valid : t.status ≠ .invalid) (charged : IsCharged t.data t.results)
      (unfailed : ¬ FailsBy t.data t.results) :
      Outcome n t ({ t with hasResults := true }.chargedFully n)
  | failed (valid : t.status ≠ .invalid) (fails : FailsBy t.data t.results) :
      Outcome n t { { t with hasResults := true }.chargedFully n with status := .fail }

namespace Outcome

variable {n : Network} {t u : Transaction}

theorem hasResults_iff (ho : Outcome n t u) (fresh : t.hasResults = false) :
    u.hasResults = true ↔ t.results ≠ [] := by
  cases ho with
  | alone nothing => simp [fresh, nothing]
  | kept some why => simp [some]
  | charged valid charged unfailed => simp [Transaction.chargedFully, charged.nonempty]
  | failed valid fails => simp [Transaction.chargedFully, fails.isCharged.nonempty]

theorem status_of_invalid (ho : Outcome n t u) (hinvalid : t.status = .invalid) :
    u.status = .invalid := by
  cases ho with
  | alone nothing => exact hinvalid
  | kept some why => exact hinvalid
  | charged valid charged unfailed => exact absurd hinvalid valid
  | failed valid fails => exact absurd hinvalid valid

/-- A failure overrides every other status but that of an invalid transaction, which no result can
change. -/
theorem status_of_failsBy (ho : Outcome n t u) (valid : t.status ≠ .invalid)
    (hfails : FailsBy t.data t.results) : u.status = .fail := by
  cases ho with
  | alone nothing => exact absurd nothing hfails.isCharged.nonempty
  | kept some why => exact absurd hfails.isCharged (why.resolve_left valid)
  | charged valid charged unfailed => exact absurd hfails unfailed
  | failed valid fails => rfl

theorem status_of_not_failsBy (ho : Outcome n t u) (hfails : ¬ FailsBy t.data t.results) :
    u.status = t.status := by
  cases ho with
  | alone nothing => rfl
  | kept some why => rfl
  | charged valid charged unfailed => rfl
  | failed valid fails => exact absurd fails hfails

theorem cost_of_isCharged (ho : Outcome n t u) (valid : t.status ≠ .invalid)
    (hcharged : IsCharged t.data t.results) :
    u.gasUsed = t.gasLimit ∧
      ∃ fee, fee = n.fees.fee t.gasPrice t.gasLimit t.data ∧ u.fee = Digits.ofNat fee ∧
        u.feeNum = (n.scale.showTokenValue (Int.ofNat fee)).toOption.getD .zero := by
  cases ho with
  | alone nothing => exact absurd nothing hcharged.nonempty
  | kept some why => exact absurd hcharged (why.resolve_left valid)
  | charged valid charged unfailed => exact ⟨rfl, _, rfl, rfl, rfl⟩
  | failed valid fails => exact ⟨rfl, _, rfl, rfl, rfl⟩

theorem cost_of_not_isCharged (ho : Outcome n t u)
    (hcharged : t.status = .invalid ∨ ¬ IsCharged t.data t.results) :
    u.gasUsed = t.gasUsed ∧ u.fee = t.fee ∧ u.feeNum = t.feeNum := by
  cases ho with
  | alone nothing => exact ⟨rfl, rfl, rfl⟩
  | kept some why => exact ⟨rfl, rfl, rfl⟩
  | charged valid charged unfailed => exact absurd charged (hcharged.resolve_left valid)
  | failed valid fails => exact absurd fails.isCharged (hcharged.resolve_left valid)

end Outcome

namespace Transaction

variable {n : Network} {t : Transaction}

theorem wraps_eq_true_iff : t.wraps = true ↔ relayedMark <+: t.data :=
  List.isPrefixOf_iff_prefix

/-- The ways out, for a transaction that has results. -/
theorem withOutcome_eq_of_results (n : Network) (hsome : t.results ≠ []) :
    t.withOutcome n =
      if t.wraps || t.status == .invalid then { t with hasResults := true }
      else if t.results.any ContractResult.isOk then { t with hasResults := true }
      else if t.results.any ContractResult.isPendingTransfer then
        { t with hasResults := true }.chargedFully n
      else if t.results.any ContractResult.isFailure then
        { { t with hasResults := true }.chargedFully n with status := .fail }
      else { t with hasResults := true }.chargedFully n := by
  rw [withOutcome, if_neg (fun hnil => hsome (List.isEmpty_iff.mp hnil))]
  rfl

/-- There is no other way out. -/
theorem outcome_withOutcome (n : Network) (t : Transaction) : Outcome n t (t.withOutcome n) := by
  by_cases hsome : t.results = []
  · rw [withOutcome, if_pos (List.isEmpty_iff.mpr hsome)]
    exact .alone hsome
  rw [withOutcome_eq_of_results n hsome]
  -- each test that fails adds one of the conditions of `FailsBy`
  by_cases hquiet : t.wraps || t.status == .invalid
  · rw [if_pos hquiet]
    refine .kept hsome ?_
    rw [Bool.or_eq_true, beq_iff_eq, wraps_eq_true_iff] at hquiet
    exact hquiet.symm.imp_right fun hwraps hcharged => hcharged.unwrapped hwraps
  rw [if_neg hquiet]
  rw [Bool.or_eq_true, beq_iff_eq, wraps_eq_true_iff, not_or] at hquiet
  obtain ⟨hunwrapped, hvalid⟩ := hquiet
  by_cases hok : t.results.any ContractResult.isOk
  · rw [if_pos hok]
    obtain ⟨r, hr, hrok⟩ := List.any_eq_true.mp hok
    refine .kept hsome (Or.inr fun hcharged => ?_)
    exact hcharged.unmarked r hr (ContractResult.isOk_eq_true_iff.mp hrok)
  have hunmarked : ∀ r ∈ t.results, ¬ r.TellsSuccess := fun r hr htells =>
    hok (List.any_eq_true.mpr ⟨r, hr, ContractResult.isOk_eq_true_iff.mpr htells⟩)
  have hcharged : IsCharged t.data t.results := ⟨hsome, hunwrapped, hunmarked⟩
  rw [if_neg hok]
  by_cases hcross : t.results.any ContractResult.isPendingTransfer
  · rw [if_pos hcross]
    obtain ⟨r, hr, hrcross⟩ := List.any_eq_true.mp hcross
    refine .charged hvalid hcharged fun hfails => ?_
    exact hfails.arrived r hr (ContractResult.isPendingTransfer_eq_true_iff.mp hrcross)
  have harrived : ∀ r ∈ t.results, ¬ r.IsCrossing := fun r hr hcrosses =>
    hcross (List.any_eq_true.mpr
      ⟨r, hr, ContractResult.isPendingTransfer_eq_true_iff.mpr hcrosses⟩)
  rw [if_neg hcross]
  by_cases hfail : t.results.any ContractResult.isFailure
  · rw [if_pos hfail]
    obtain ⟨r, hr, hrfail⟩ := List.any_eq_true.mp hfail
    exact .failed hvalid ⟨hunwrapped, hunmarked, harrived, r, hr,
      ContractResult.isFailure_eq_true_iff.mp hrfail⟩
  · rw [if_neg hfail]
    refine .charged hvalid hcharged fun hfails => ?_
    obtain ⟨r, hr, htells⟩ := hfails.told
    exact hfail (List.any_eq_true.mpr ⟨r, hr, ContractResult.isFailure_eq_true_iff.mpr htells⟩)

/-- Drawing the outcome changes the status and the cost, and that there are results, at most. As an
equation of records this gives every other field by taking that field on both sides. -/
theorem withOutcome_frame (n : Network) (t : Transaction) :
    { t.withOutcome n with
      hasResults := t.hasResults
      status := t.status
      gasUsed := t.gasUsed
      fee := t.fee
      feeNum := t.feeNum } = t := by
  have ho := outcome_withOutcome n t
  generalize t.withOutcome n = u at ho ⊢
  cases ho <;> rfl

@[simp] theorem hash_withOutcome : (t.withOutcome n).hash = t.hash :=
  (congrArg hash (withOutcome_frame n t) :)

@[simp] theorem searchOrder_withOutcome : (t.withOutcome n).searchOrder = t.searchOrder :=
  (congrArg searchOrder (withOutcome_frame n t) :)

@[simp] theorem data_withOutcome : (t.withOutcome n).data = t.data :=
  (congrArg data (withOutcome_frame n t) :)

@[simp] theorem gasLimit_withOutcome : (t.withOutcome n).gasLimit = t.gasLimit :=
  (congrArg gasLimit (withOutcome_frame n t) :)

@[simp] theorem gasPrice_withOutcome : (t.withOutcome n).gasPrice = t.gasPrice :=
  (congrArg gasPrice (withOutcome_frame n t) :)

@[simp] theorem results_withOutcome : (t.withOutcome n).results = t.results :=
  (congrArg results (withOutcome_frame n t) :)

@[simp] theorem errorEvent_withOutcome : (t.withOutcome n).errorEvent = t.errorEvent :=
  (congrArg errorEvent (withOutcome_frame n t) :)

@[simp] theorem completedEvent_withOutcome :
    (t.withOutcome n).completedEvent = t.completedEvent :=
  (congrArg completedEvent (withOutcome_frame n t) :)

@[simp] theorem receiverShard_withOutcome :
    (t.withOutcome n).receiverShard = t.receiverShard :=
  (congrArg receiverShard (withOutcome_frame n t) :)

@[simp] theorem type_withOutcome : (t.withOutcome n).type = t.type :=
  (congrArg type (withOutcome_frame n t) :)

@[simp] theorem function_withOutcome : (t.withOutcome n).function = t.function :=
  (congrArg function (withOutcome_frame n t) :)

@[simp] theorem tokens_withOutcome : (t.withOutcome n).tokens = t.tokens :=
  (congrArg tokens (withOutcome_frame n t) :)

@[simp] theorem tokenValues_withOutcome : (t.withOutcome n).tokenValues = t.tokenValues :=
  (congrArg tokenValues (withOutcome_frame n t) :)

@[simp] theorem tokenValuesNum_withOutcome :
    (t.withOutcome n).tokenValuesNum = t.tokenValuesNum :=
  (congrArg tokenValuesNum (withOutcome_frame n t) :)

@[simp] theorem receivers_withOutcome : (t.withOutcome n).receivers = t.receivers :=
  (congrArg receivers (withOutcome_frame n t) :)

@[simp] theorem receiverShards_withOutcome :
    (t.withOutcome n).receiverShards = t.receiverShards :=
  (congrArg receiverShards (withOutcome_frame n t) :)

end Transaction

end ChainIndex
