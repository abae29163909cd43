import ChainIndex.Proofs.Call.Summary
import ChainIndex.Proofs.Settlement.Origin
import ChainIndex.Proofs.Text.Ascii
import ChainIndex.Proofs.Text.Cut

/-!
# Which fields of a settled block are cut

A transaction shows the function and the tokens that its data names, each cut to the size of a
field. A result has only its function cut and shows its tokens as they are, so it keeps to that size
if and only if the tokens fit by themselves (`Network.settle_showsFields`).

Nothing that happens to a record after it is made touches these fields, so each statement is one
about the making of a record: of a transaction or a reward by the miniblock that lists it, of a
result by its entry in the pool.
-/

namespace ChainIndex

open Text (IsFront maxFieldBytes)

/-- A record shows the function and the tokens that its data names, each cut to the size of a
field. -/
structure ShowsCut (function : String) (tokens : List String) (said : CallSummary) : Prop where
  function : IsFront maxFieldBytes function said.function
  tokens : List.Forall₂ (IsFront maxFieldBytes) tokens said.tokens

/-- No token is too long for a field. -/
def CallSummary.TokensFit (said : CallSummary) : Prop :=
  ∀ token ∈ said.tokens, token.utf8ByteSize ≤ maxFieldBytes

namespace Network

/-- What is said by the data of the transaction or reward that a pool has for a hash. A reward has
no data, and nobody has a key for its sender. -/
inductive PoolSays (n : Network) (pool : Pool) (hash : String) : Bytes → CallSummary → Prop
  | normal {entry : TxEntry} (found : pool.transactions.get? hash = some entry) :
      PoolSays n pool hash entry.transaction.data
        (n.read entry.transaction.data entry.transaction.sender entry.transaction.receiver)
  | invalid {entry : TxEntry} (found : pool.invalid.get? hash = some entry) :
      PoolSays n pool hash entry.transaction.data
        (n.read entry.transaction.data entry.transaction.sender entry.transaction.receiver)
  | reward {entry : RewardEntry} (found : pool.rewards.get? hash = some entry) :
      PoolSays n pool hash [] (n.read [] [] entry.reward.receiver)

/-- The records of a block show what their data says: transactions cut to the size of a field,
results with tokens of any size. -/
structure ShowsFields (n : Network) (block : Block) (s : Settled) : Prop where
  transactions : ∀ t ∈ s.transactions, ∃ pool said, block.pool = some pool ∧
    n.PoolSays pool t.hash t.data said ∧ ShowsCut t.function t.tokens said
  results : ∀ r ∈ s.results, ∃ pool entry said, block.pool = some pool ∧
    pool.results.get? r.hash = some entry ∧
    said = n.read entry.result.data entry.result.sender entry.result.receiver ∧
    IsFront maxFieldBytes r.function said.function ∧ r.tokens = said.tokens ∧
    (ShowsCut r.function r.tokens said ↔ said.TokensFit)
  /-- The results that are attached to transactions are among them. -/
  attached : ∀ t ∈ s.transactions, ∀ r ∈ t.results, r ∈ s.results

end Network

/-! ### Cut fields -/

theorem isFront_cutField (s : String) : IsFront maxFieldBytes (Text.cutField s) s :=
  Text.isFront_cut maxFieldBytes s

/-- Cutting the function and each token shows them cut. -/
theorem showsCut_cutField (said : CallSummary) :
    ShowsCut (Text.cutField said.function) (said.tokens.map Text.cutField) said := by
  refine ⟨isFront_cutField _, ?_⟩
  rw [List.forall₂_map_left_iff, List.forall₂_same]
  exact fun token _ => isFront_cutField token

/-- Tokens that are shown as they are need to fit by themselves. -/
theorem showsCut_iff_tokensFit {function : String} {said : CallSummary}
    (hfunction : IsFront maxFieldBytes function said.function) :
    ShowsCut function said.tokens said ↔ said.TokensFit := by
  constructor
  · intro h token htoken
    exact (List.forall₂_same.mp h.tokens token htoken).fits
  · intro h
    exact ⟨hfunction, List.forall₂_same.mpr fun token htoken => Text.isFront_self (h token htoken)⟩

/-! ### Main result -/

namespace Network

variable {n : Network} {h : Header} {importMode : Bool} {b : Block} {t : Transaction}
  {p : PlacedMiniBlock}

/-- Without data there is nothing to say. -/
theorem read_nil (n : Network) (sender receiver : Bytes) :
    n.read [] sender receiver = .ofOperation CallSummary.plainOperation := by
  have hnone : Call.ofData? [] = none := by decide
  rw [CallReader.read, CallReader.readWith, hnone]
  rfl

/-- A miniblock of transactions makes a record that shows what its data says. -/
theorem ListsTransaction.showsCut {pool : Pool} {hash : String} {r : Transaction}
    (hr : n.ListsTransaction h pool importMode p hash r) :
    ∃ said, n.PoolSays pool hash r.data said ∧ ShowsCut r.function r.tokens said := by
  cases hr with
  | normal type fresh indexed executes found =>
      exact ⟨_, .normal found, showsCut_cutField _⟩
  | invalid type executes found => exact ⟨_, .invalid found, showsCut_cutField _⟩

/-- A miniblock of rewards makes a record that shows nothing, and there is nothing to show. -/
theorem ListsReward.showsCut {pool : Pool} {hash : String} {r : Transaction}
    (hr : n.ListsReward h pool importMode p hash r) :
    ∃ said, n.PoolSays pool hash r.data said ∧ ShowsCut r.function r.tokens said := by
  cases hr with
  | reward type indexed executes found =>
      refine ⟨_, .reward found, ?_⟩
      rw [read_nil]
      exact ⟨Text.isFront_self (Nat.zero_le _), .nil⟩

/-- Drawing the outcome leaves alone what a transaction shows of its data. -/
theorem ComesFrom.showsCut (hp : n.ComesFrom h importMode b t p) :
    ∃ pool said, b.pool = some pool ∧ n.PoolSays pool t.hash t.data said ∧
      ShowsCut t.function t.tokens said := by
  cases hp with
  | @transaction pool r found last settled =>
      obtain ⟨said, hsaid, hshows⟩ := last.lists.showsCut
      have hdata : t.data = r.data := by
        rw [settled]
        exact Transaction.data_withOutcome
      have hfunction : t.function = r.function := by
        rw [settled]
        exact Transaction.function_withOutcome
      have htokens : t.tokens = r.tokens := by
        rw [settled]
        exact Transaction.tokens_withOutcome
      rw [hdata, hfunction, htokens]
      exact ⟨pool, said, found, hsaid, hshows⟩
  | @reward pool r found last unchanged =>
      obtain ⟨said, hsaid, hshows⟩ := last.lists.showsCut
      subst unchanged
      exact ⟨pool, said, found, hsaid, hshows⟩

/-- A transaction has attached results of its block. -/
theorem ComesFrom.results_subset (hp : n.ComesFrom h importMode b t p) (hh : b.header = some h) :
    ∀ r ∈ t.results, r ∈ (n.settle b importMode).results := by
  intro r hr
  cases hp with
  | @transaction pool listed found last settled =>
      rw [settled, settledForm, Transaction.results_withOutcome] at hr
      rw [settle_results n hh found]
      exact (List.mem_filter.mp hr).1
  | reward found last unchanged =>
      rw [unchanged] at hr
      cases last.lists
      cases hr

/-- Transactions show their function and their tokens cut to the size of a field, and results only
their function: their tokens keep to that size if and only if they fit by themselves. -/
theorem settle_showsFields (n : Network) (b : Block) (importMode : Bool) :
    n.ShowsFields b (n.settle b importMode) := by
  constructor
  · intro t ht
    obtain ⟨h, pool, hh, -⟩ := exists_of_mem_settle ht
    obtain ⟨p, hp⟩ := exists_comesFrom hh ht
    exact hp.showsCut
  · intro r hr
    obtain ⟨h, pool, key, entry, -, hpool, hentry, rfl⟩ := mem_settle_results.mp hr
    exact ⟨pool, entry, _, hpool, hentry, rfl, isFront_cutField _, rfl,
      showsCut_iff_tokensFit (isFront_cutField _)⟩
  · intro t ht
    obtain ⟨h, pool, hh, -⟩ := exists_of_mem_settle ht
    obtain ⟨p, hp⟩ := exists_comesFrom hh ht
    exact hp.results_subset hh

/-- A token with a name of one byte too many. -/
def longToken : String :=
  String.ofList (List.replicate (maxFieldBytes + 1) 'a')

theorem lt_utf8ByteSize_longToken : maxFieldBytes < longToken.utf8ByteSize := by
  have hlength := Text.length_le_utf8ByteSize longToken
  rw [longToken, String.toList_ofList, List.length_replicate] at hlength
  exact hlength

theorem isAsciiText_longToken : isAsciiText longToken = true := by
  rw [isAsciiText_eq_true_iff, longToken, String.toList_ofList]
  intro c hc
  rw [List.eq_of_mem_replicate hc]
  decide

/-- A result whose data moves such a token. -/
theorem settle_showsFields_of_long_token :
    let entry : ResultEntry :=
      { result := { data := Call.toData ⟨"ESDTTransfer", [Utf8.encode longToken, [5]]⟩ } }
    let b : Block := { header := some {}, pool := some { results := .ofList [("02", entry)] } }
    ∃ r ∈ ((default : Network).settle b false).results, r.tokens = [longToken] ∧
      ¬ ShowsCut r.function r.tokens ((default : Network).read entry.result.data [] []) := by
  intro entry b
  have hname : (⟨"ESDTTransfer", [Utf8.encode longToken, [5]]⟩ : Call).function =
      CallKind.tokenTransferName := rfl
  have hcalls : (default : Network).Calls entry.result.data [] _ :=
    .of_toData hname (by decide) (by decide)
  have hsaid : ((default : Network).read entry.result.data [] []).tokens = [longToken] := by
    rw [CallReader.read, CallReader.readWith_of_tokenTransfer hcalls rfl,
      CallReader.readTokenTransfer, Bytes.isAscii_encode, if_pos isAsciiText_longToken,
      Utf8.lenient_encode]
  -- the tokens of the result are those that its data says, and the condition tells the rest
  have hr : (default : Network).resultOf {} "02" (resultPlace 0 [] "02") entry ∈
      ((default : Network).settle b false).results :=
    mem_settle_results.mpr ⟨_, _, "02", entry, rfl, rfl, rfl, rfl⟩
  obtain ⟨pool, entry', said, hpool, hentry, rfl, -, htokens, hiff⟩ :=
    (settle_showsFields default b false).results _ hr
  have hsame : entry' = entry := by
    obtain rfl := Option.some.inj hpool
    exact (Option.some.inj hentry).symm
  rw [hsame] at htokens hiff
  refine ⟨_, hr, htokens.trans hsaid, fun hcut => ?_⟩
  have hfits := hiff.mp hcut longToken (by rw [hsaid]; exact List.mem_cons_self)
  exact Nat.not_lt_of_le hfits lt_utf8ByteSize_longToken

end Network

end ChainIndex
