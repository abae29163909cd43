import ChainIndex.Proofs.Positional.Calls
import ChainIndex.Proofs.Positional.Events
import ChainIndex.Proofs.Positional.Registry
import ChainIndex.Proofs.Indexer
import ChainIndex.Proofs.Search.Registries
import ChainIndex.Proofs.Token.Resolve
import ChainIndex.Proofs.Token.Tags

/-!
# What can go wrong in a run

Nothing but the store. A run asks about at most three registries, one request for each that has a
token, and goes on as long as it gets answers; it fails with the error of the one request that has
failed, and gives documents if there is none (`Indexer.process_makes`). And whatever a block holds,
nothing is read where there is nothing to read.

The requests that a run would make are fixed before the first one: an answer changes what is known
of tokens, but no token and no collection. So a run is compared with a list of requests that the
block alone gives, and the relation says how far it gets in that list and why it stops there
(`Consultation.Makes`). It is kept by asking one thing after another (`Consultation.Makes.bind`),
which is where the argument is; from there on a run is put together like the program. The list is
written out with the collections of three lists of tokens, so what the store gets to see is known
and not only how often it is asked.
-/

namespace ChainIndex

/-- The store has an answer to a request. -/
def TokenStore.Answers (store : TokenStore) (call : StoreCall) : Prop :=
  ∃ answers, store call.ids call.index = .ok answers

namespace Consultation

variable {α β : Type} {store : TokenStore}

/-- Asking makes requests in order, each as long as all earlier ones have been answered, and fails
exactly as one of those made does. -/
structure Makes (c : Consultation α) (store : TokenStore) (requests : List StoreCall) : Prop where
  inOrder : c.calls <+: requests
  made_iff : ∀ i < requests.length,
    i < c.calls.length ↔ ∀ call ∈ requests.take i, store.Answers call
  error_iff : ∀ e, c.result = .error e ↔ ∃ call ∈ c.calls, store call.ids call.index = .error e

namespace Makes

variable {c : Consultation α} {requests requests' : List StoreCall}

theorem pure (a : α) : (pure a : Consultation α).Makes store [] := by
  refine ⟨List.prefix_rfl, fun i hi => absurd hi (Nat.not_lt_zero i), fun e => ⟨nofun, ?_⟩⟩
  rintro ⟨call, hcall, -⟩
  exact nomatch hcall

/-- Asking that succeeds has got answers to what it has asked. -/
theorem answers (h : c.Makes store requests) {a : α} (ha : c.result = .ok a) {call : StoreCall}
    (hcall : call ∈ c.calls) : store.Answers call := by
  cases hanswers : store call.ids call.index with
  | ok answers => exact ⟨answers, hanswers⟩
  | error e =>
      rw [(h.error_iff e).mpr ⟨call, hcall, hanswers⟩] at ha
      exact nomatch ha

/-- Asking that succeeds has made all requests. -/
theorem calls_eq (h : c.Makes store requests) {a : α} (ha : c.result = .ok a) :
    c.calls = requests := by
  refine h.inOrder.eq_of_length_le (Nat.le_of_not_lt fun hlt => ?_)
  -- else there is a next request, and nothing that keeps it from being made
  refine Nat.lt_irrefl _ ((h.made_iff _ hlt).mpr fun call hcall => ?_)
  rw [← List.prefix_iff_eq_take.mp h.inOrder] at hcall
  exact h.answers ha hcall

/-- Asking on makes the further requests after all others have been answered. If one of the first
requests has failed, nothing is asked any more, and that request stands in front of all further
ones. -/
theorem bind (h : c.Makes store requests) {next : α → Consultation β}
    (hnext : ∀ a, (next a).Makes store requests') :
    (c >>= next).Makes store (requests ++ requests') := by
  show (c.andThen next).Makes store _
  unfold andThen
  cases hresult : c.result with
  | error e =>
      obtain ⟨call, hcall, herror⟩ := (h.error_iff e).mp hresult
      refine ⟨h.inOrder.trans (List.prefix_append _ _), fun i hi => ?_, fun e' => ?_⟩
      · dsimp only
        by_cases hlt : i < requests.length
        · rw [h.made_iff i hlt, List.take_append_of_le_length (Nat.le_of_lt hlt)]
        · -- the request that has failed comes before
          have hle := Nat.not_lt.mp hlt
          refine ⟨fun hmade => absurd (Nat.lt_of_lt_of_le hmade h.inOrder.length_le) hlt,
            fun hanswers => ?_⟩
          have hmem : call ∈ (requests ++ requests').take i := by
            rw [List.take_append, List.take_of_length_le hle]
            exact List.mem_append_left _ (h.inOrder.subset hcall)
          obtain ⟨answers, hok⟩ := hanswers call hmem
          exact nomatch hok.symm.trans herror
      · rw [← h.error_iff e', hresult]
        simp
  | ok a =>
      have hcalls := h.calls_eq hresult
      have hall : ∀ call ∈ requests, store.Answers call := fun call hcall =>
        h.answers hresult (hcalls.symm ▸ hcall)
      have h' := hnext a
      dsimp only
      rw [hcalls]
      refine ⟨(List.prefix_append_right_inj _).mpr h'.inOrder, fun i hi => ?_, fun e => ?_⟩
      · by_cases hlt : i < requests.length
        · refine ⟨fun _ call hcall => ?_, fun _ => ?_⟩
          · rw [List.take_append_of_le_length (Nat.le_of_lt hlt)] at hcall
            exact hall call (List.mem_of_mem_take hcall)
          · rw [List.length_append]
            exact Nat.lt_add_right _ hlt
        · obtain ⟨j, rfl⟩ := Nat.exists_eq_add_of_le (Nat.not_lt.mp hlt)
          rw [List.length_append, Nat.add_lt_add_iff_left] at hi
          rw [List.length_append, Nat.add_lt_add_iff_left, h'.made_iff j hi,
            List.take_length_add_append, List.forall_mem_append, and_iff_right hall]
      · rw [h'.error_iff e]
        refine ⟨fun ⟨call, hcall, herror⟩ => ⟨call, List.mem_append_right _ hcall, herror⟩,
          fun ⟨call, hcall, herror⟩ => ?_⟩
        rcases List.mem_append.mp hcall with hcall | hcall
        · obtain ⟨answers, hok⟩ := hall call hcall
          exact nomatch hok.symm.trans herror
        · exact ⟨call, hcall, herror⟩

/-- Asking succeeds if all requests are answered, and only then. -/
theorem exists_result_iff (h : c.Makes store requests) :
    (∃ a, c.result = .ok a) ↔ ∀ call ∈ requests, store.Answers call := by
  refine ⟨fun ⟨a, ha⟩ call hcall => h.answers ha (h.calls_eq ha ▸ hcall), fun hanswers => ?_⟩
  cases hresult : c.result with
  | ok a => exact ⟨a, rfl⟩
  | error e =>
      obtain ⟨call, hcall, herror⟩ := (h.error_iff e).mp hresult
      obtain ⟨answers, hok⟩ := hanswers call (h.inOrder.subset hcall)
      exact nomatch hok.symm.trans herror

end Makes

end Consultation

/-! ### The requests of a block -/

/-- A registry makes the one request that it needs. -/
theorem TokenStore.resolve_makes (store : TokenStore) (index : String) (r : Registry) :
    (store.resolve index r).Makes store (r.requests index) := by
  by_cases hnil : r.entries = []
  · rw [resolve_of_nil hnil, Registry.requests, if_pos hnil]
    exact .pure r
  · rw [resolve_of_ne_nil hnil, Registry.requests, if_neg hnil]
    refine ⟨List.prefix_rfl, fun i hi => ?_, fun e => ?_⟩
    · rw [List.length_singleton, Nat.lt_one_iff] at hi
      subst hi
      simp
    · cases hanswers : store (r.entries.map (·.collection)) index with
      | ok answers => simp [Except.map, hanswers]
      | error e' => simp [Except.map, hanswers]

/-- Metadata is of no account for what is asked. -/
theorem Registry.requests_describe (index : String) (r : Registry)
    (accounts : List AlteredAccount) :
    (r.describe accounts).requests index = r.requests index := by
  have hcollection : ∀ t : TokenRecord,
      (t.describedBy (accounts.flatMap (·.tokens))).collection = t.collection := by
    intro t
    obtain ⟨_, heq⟩ := TokenRecord.describedBy_frame (accounts.flatMap (·.tokens)) t
    rw [heq]
  have hentries : (r.describe accounts).entries =
      r.entries.map (TokenRecord.describedBy (accounts.flatMap (·.tokens))) := rfl
  simp only [requests, hentries, List.map_eq_nil_iff, List.map_map, Function.comp_def, hcollection]

/-- Registries that have a token make one request each, and the others make none. -/
theorem Registry.flatMap_requests (index : String) (rs : List Registry) :
    rs.flatMap (·.requests index) =
      (rs.filter (·.entries ≠ [])).map fun r => ⟨r.entries.map (·.collection), index⟩ := by
  induction rs with
  | nil => rfl
  | cons r rest ih =>
      rw [List.flatMap_cons, ih, requests]
      by_cases hnil : r.entries = []
      · simp [hnil]
      · simp [hnil]

/-- A block asks about the items that it creates, about what accounts hold, and about the items that
are removed. -/
theorem Digested.resolve_makes (d : Digested) (store : TokenStore) (index : String) :
    (d.resolve store index).Makes store
      ([d.findings.created, d.heldTokens, d.findings.removed].flatMap (·.requests index)) :=
  (store.resolve_makes index d.findings.created).bind fun _ =>
    (store.resolve_makes index d.heldTokens).bind fun _ =>
      (store.resolve_makes index d.findings.removed).bind fun _ => .pure _

/-! ### Reading a block

Each reader has a form that looks at positions of its input and fails where there is none. That no
such form ever fails is proved where the reader is; here the results are put side by side. -/

/-- Whatever it is given, a network reads it by position without going wrong. What data says is then
also what the library makes of it, if a counter can measure the data. -/
structure Network.ReadsAnything (n : Network) : Prop where
  data : ∀ data sender receiver,
    Positional.Succeeds (Positional.read n.toCallReader data sender receiver) fun said =>
      Positional.IsMeasurable data receiver → said = n.read data sender receiver
  logs : ∀ stamp logs txs results,
    Positional.readLogs n stamp logs txs results = .ok (n.readLogs stamp logs txs results)
  contracts : ∀ key, Positional.isContractKey key = .ok (isContractKey key)
  shards : ∀ key, Positional.shardOf n.sharding key = .ok (n.sharding.shardOf key)
  fees : ∀ gasPrice gasUsed data,
    Positional.fee n.fees gasPrice gasUsed data = .ok (n.fees.fee gasPrice gasUsed data)
  transfers : ∀ count data,
    Positional.isNftTransferData count data = .ok (isNftTransferData count data)
  identifiers : ∀ collection nonce,
    Positional.tokenIdentifier collection nonce = .ok (tokenIdentifier collection nonce)
  nonces : ∀ nonce, Positional.nonceText nonce = .ok (nonceText nonce)
  metadata : ∀ raw, Positional.metadataOf raw = .ok (.ofRaw raw)
  texts : ∀ limit s, Positional.cut limit s = .ok (Text.cut limit s)
  registries : ∀ (r : Registry) (ts : List TokenRecord),
    ts.foldlM Positional.IndexedRegistry.add (.ofRegistry r) =
      .ok (.ofRegistry (ts.foldl Registry.add r))
  tagCounts : ∀ entries tag count,
    (n.accountReader.tagCounts entries).get? tag = some count → count ≤ entries.length

theorem Network.readsAnything (n : Network) : n.ReadsAnything where
  data := Positional.read_succeeds n.toCallReader
  logs := Positional.readLogs_eq n
  contracts := Positional.isContractKey_eq
  shards := Positional.shardOf_eq n.sharding
  fees := Positional.fee_eq n.fees
  transfers := Positional.isNftTransferData_eq
  identifiers := Positional.tokenIdentifier_eq
  nonces := Positional.nonceText_eq
  metadata := Positional.metadataOf_eq
  texts := Positional.cut_eq
  registries := fun r ts => Positional.IndexedRegistry.foldlM_add ts r
  tagCounts := fun _ _ _ => n.accountReader.tagCount_le

/-- Only the store can fail a run, with an error of its own: of the requests for the three
registries of a block, each with the collections of its tokens in their order, each is made as long
as the earlier ones have been answered, and there are documents if all of them have. Nothing in a
block makes reading it go wrong. -/
theorem Indexer.process_makes (x : Indexer) (store : TokenStore) (b : Block) :
    ∃ created held removed : Registry,
      created.FilledWith (x.network.creations b) ∧ held.FilledWith (x.network.held b) ∧
        removed.FilledWith (x.network.removals b) ∧
        let requests : List StoreCall :=
          ([created, held, removed].filter (·.entries ≠ [])).map fun r =>
            ⟨r.entries.map (·.collection), x.names.tokens⟩
        requests.length ≤ 3 ∧ (x.process store b).Makes store requests ∧
          ((∃ docs, (x.process store b).result = .ok docs) ↔
            ∀ call ∈ requests, store.Answers call) ∧
          x.network.ReadsAnything := by
  refine ⟨_, _, _, Registry.filledWith_foldl_add _, Registry.filledWith_foldl_add _,
    Registry.filledWith_foldl_add _, ?_⟩
  intro requests
  have hmakes : (x.process store b).Makes store requests := by
    have hprocess := ((x.network.digest x.importMode b).resolve_makes store x.names.tokens).bind
      fun tokens => .pure ((x.network.digest x.importMode b).documents tokens x.names)
    rw [List.append_nil, Network.created_digest_eq, Network.heldTokens_digest_eq,
      Network.removed_digest_eq, List.flatMap_cons, Registry.requests_describe,
      ← List.flatMap_cons, Registry.flatMap_requests] at hprocess
    exact hprocess
  have hlength : requests.length ≤ 3 := by
    rw [List.length_map]
    exact List.length_filter_le _ _
  exact ⟨hlength, hmakes, hmakes.exists_result_iff, x.network.readsAnything⟩

/-- A block creates an item of one collection, has an account that holds one of a second, and burns
one of a third. The store fails about the second collection, so it is not asked about the third, and
the run ends with its error. -/
theorem Indexer.process_makes_of_failing_store :
    let create : Event :=
      { address := [0], identifier := "ESDTNFTCreate"
        topics := [[65, 45, 49], [1], [], [0x7B, 0x7D]] }
    let holder : AlteredAccount :=
      { address := "00", tokens := [{ identifier := "B-1", nonce := 2, balance := "1" }] }
    let burn : Event :=
      { address := [0], identifier := "ESDTNFTBurn", topics := [[67, 45, 49], [1]] }
    let b : Block :=
      { pool := some { logs := [⟨"01", ⟨[0], [create, burn]⟩⟩] }
        accounts := .ofList [("00", holder)] }
    let store : TokenStore := fun ids _ =>
      if ids = ["B-1"] then .error (.internal "down") else .ok []
    let run := (⟨default, false, {}⟩ : Indexer).process store b
    run.calls = [⟨["A-1"], "tokens"⟩, ⟨["B-1"], "tokens"⟩] ∧
      run.result = .error (.internal "down") := by
  intro create holder burn b store run
  obtain ⟨created, held, removed, hcreated, hheld, hremoved, -, hmakes, -, -⟩ :=
    process_makes ⟨default, false, {}⟩ store b
  have hcreations : ((default : Network).creations b).map (·.collection) = ["A-1"] := by
    decide +kernel
  have hholds : ((default : Network).held b).map (·.collection) = ["B-1"] := by
    decide +kernel
  have hremovals : ((default : Network).removals b).map (·.collection) = ["C-1"] := by
    decide +kernel
  have hkept : ∀ r ∈ [created, held, removed], decide (r.entries ≠ []) = true := by
    have hsome : ∀ (r : Registry) (collection : String),
        r.entries.map (·.collection) = [collection] → decide (r.entries ≠ []) = true := by
      intro r collection hr
      refine decide_eq_true fun hnil => ?_
      rw [hnil] at hr
      exact nomatch hr
    simp only [List.forall_mem_cons]
    exact ⟨hsome _ _ (hcreated.collections_eq hcreations),
      hsome _ _ (hheld.collections_eq hholds), hsome _ _ (hremoved.collections_eq hremovals), nofun⟩
  rw [List.filter_eq_self.mpr hkept] at hmakes
  simp only [List.map_cons, List.map_nil, hcreated.collections_eq hcreations,
    hheld.collections_eq hholds, hremoved.collections_eq hremovals] at hmakes
  have hmakes : run.Makes store
      [⟨["A-1"], "tokens"⟩, ⟨["B-1"], "tokens"⟩, ⟨["C-1"], "tokens"⟩] := hmakes
  -- the first request is answered, so the second is made; the third waits for an answer to it
  have hsecond : 1 < run.calls.length := by
    refine (hmakes.made_iff 1 (by decide)).mpr fun call hcall => ?_
    obtain rfl := List.mem_singleton.mp hcall
    exact ⟨[], rfl⟩
  have hthird : ¬ 2 < run.calls.length := by
    intro hmade
    obtain ⟨_, hanswers⟩ := (hmakes.made_iff 2 (by decide)).mp hmade ⟨["B-1"], "tokens"⟩ (by simp)
    exact nomatch hanswers
  have hcalls : run.calls = [⟨["A-1"], "tokens"⟩, ⟨["B-1"], "tokens"⟩] := by
    have hlength : run.calls.length = 2 := by omega
    rw [List.prefix_iff_eq_take.mp hmakes.inOrder, hlength]
    rfl
  exact ⟨hcalls, (hmakes.error_iff _).mpr ⟨⟨["B-1"], "tokens"⟩, by simp [hcalls], rfl⟩⟩

end ChainIndex
