import ChainIndex.Indexer

/-!
# Runs

The documents of a run that succeeds are those of the block, with the tokens that the answers of the
store complete (`Indexer.process_result_eq_ok_iff`). Nothing but the store can fail
(`Indexer.yields_of_documents`), so a store that answers everything gives documents for every block
(`Indexer.exists_process_result`).

What a block is read into does not depend on the store. So most of what is said of documents is said
for any tokens that the store may have completed, by `Indexer.yields_of_documents`, and only what is
said of types and owners has to follow the answers. `Indexer.Yields` does not leave out the failing
runs: it says of them that the store has failed.

Where two runs are compared, it is with one store. They are alike if they ask the same and what they
make of the answers is related (`Consultation.Alike`), and then they fail together.
-/

namespace ChainIndex

namespace Consultation

variable {α β : Type}

theorem result_pure_eq_ok_iff {a b : α} :
    (pure a : Consultation α).result = .ok b ↔ a = b :=
  Except.ok.injEq a b ▸ Iff.rfl

/-- Asking on succeeds if both parts do. -/
theorem result_bind_eq_ok_iff {c : Consultation α} {next : α → Consultation β} {b : β} :
    (c >>= next).result = .ok b ↔ ∃ a, c.result = .ok a ∧ (next a).result = .ok b := by
  show (c.andThen next).result = .ok b ↔ _
  unfold andThen
  cases hc : c.result with
  | error e => simp
  | ok a => simp

/-- Asking on fails where the first part that fails does. -/
theorem result_bind_eq_error_iff {c : Consultation α} {next : α → Consultation β} {e : Error} :
    (c >>= next).result = .error e ↔
      c.result = .error e ∨ ∃ a, c.result = .ok a ∧ (next a).result = .error e := by
  show (c.andThen next).result = .error e ↔ _
  unfold andThen
  cases hc : c.result with
  | error e => simp
  | ok a => simp

/-! Requests are counted where parts succeed; a part that fails ends the run with its own calls. -/

theorem calls_pure (a : α) : (pure a : Consultation α).calls = [] :=
  rfl

/-- Asking on makes the requests of both parts. -/
theorem calls_bind_of_ok {c : Consultation α} {a : α} (h : c.result = .ok a)
    (next : α → Consultation β) : (c >>= next).calls = c.calls ++ (next a).calls := by
  show (c.andThen next).calls = _
  unfold andThen
  rw [h]

/-! ### Two runs -/

/-- Two results are both errors, and then the same one, or both values in some relation. -/
inductive ResultsAlike (R : α → β → Prop) : Except Error α → Except Error β → Prop
  | ok {a : α} {b : β} (related : R a b) : ResultsAlike R (.ok a) (.ok b)
  | error (e : Error) : ResultsAlike R (.error e) (.error e)

/-- Two runs make the same requests and have results in some relation. -/
structure Alike (R : α → β → Prop) (c : Consultation α) (c' : Consultation β) : Prop where
  calls : c'.calls = c.calls
  results : ResultsAlike R c.result c'.result

variable {α' β' : Type} {R : α → β → Prop} {S : α' → β' → Prop}

theorem Alike.refl (c : Consultation α) : Alike Eq c c := by
  refine ⟨rfl, ?_⟩
  cases c.result with
  | error e => exact .error e
  | ok a => exact .ok rfl

theorem Alike.pure {a : α} {b : β} (h : R a b) :
    Alike R (pure a : Consultation α) (pure b : Consultation β) :=
  ⟨rfl, .ok h⟩

/-- Runs that go on alike are alike. -/
theorem Alike.bind {c : Consultation α} {c' : Consultation β} {next : α → Consultation α'}
    {next' : β → Consultation β'} (h : Alike R c c')
    (hnext : ∀ a b, R a b → Alike S (next a) (next' b)) : Alike S (c >>= next) (c' >>= next') := by
  show Alike S (c.andThen next) (c'.andThen next')
  obtain ⟨calls, result⟩ := c
  obtain ⟨calls', result'⟩ := c'
  obtain ⟨hcalls, hresults⟩ := h
  dsimp only at hcalls hresults
  subst hcalls
  -- after an error neither run asks on
  cases hresults with
  | error e => exact ⟨rfl, .error e⟩
  | ok related =>
      obtain ⟨hcalls, hresults⟩ := hnext _ _ related
      refine ⟨?_, hresults⟩
      show _ ++ _ = _ ++ _
      rw [hcalls]

end Consultation

/-- The tokens of a block are resolved if each of its three registries is. -/
theorem Digested.resolve_result_eq_ok_iff {d : Digested} {store : TokenStore} {index : String}
    {tokens : ResolvedTokens} :
    (d.resolve store index).result = .ok tokens ↔
      (store.resolve index d.findings.created).result = .ok tokens.created ∧
      (store.resolve index d.heldTokens).result = .ok tokens.held ∧
      (store.resolve index d.findings.removed).result = .ok tokens.removed := by
  simp only [resolve, Consultation.result_bind_eq_ok_iff, Consultation.result_pure_eq_ok_iff]
  constructor
  · rintro ⟨created, hcreated, held, hheld, removed, hremoved, rfl⟩
    exact ⟨hcreated, hheld, hremoved⟩
  · rintro ⟨hcreated, hheld, hremoved⟩
    exact ⟨_, hcreated, _, hheld, _, hremoved, rfl⟩

/-- A run gives the documents of the block, with its tokens resolved. -/
theorem Indexer.process_result_eq_ok_iff {x : Indexer} {store : TokenStore} {b : Block}
    {docs : List Document} :
    (x.process store b).result = .ok docs ↔
      ∃ tokens, ((x.network.digest x.importMode b).resolve store x.names.tokens).result =
          .ok tokens ∧
        (x.network.digest x.importMode b).documents tokens x.names = docs := by
  simp only [process, Consultation.result_bind_eq_ok_iff, Consultation.result_pure_eq_ok_iff]

/-- Only the store can fail. -/
theorem TokenStore.of_resolve_result_eq_error {store : TokenStore} {index : String} {r : Registry}
    {e : Error} (h : (store.resolve index r).result = .error e) :
    ∃ ids, store ids index = .error e := by
  unfold resolve at h
  split at h
  · cases h
  · refine ⟨r.collections, ?_⟩
    cases hanswers : store r.collections index with
    | error e' =>
        rw [hanswers] at h
        exact congrArg Except.error (Except.error.inj h)
    | ok answers =>
        rw [hanswers] at h
        cases h

/-- A run gives documents with a property, unless the store fails. -/
def Indexer.Yields (x : Indexer) (store : TokenStore) (b : Block)
    (P : List Document → Prop) : Prop :=
  match (x.process store b).result with
  | .ok docs => P docs
  | .error e => ∃ ids, store ids x.names.tokens = .error e

theorem Indexer.Yields.of_result {x : Indexer} {store : TokenStore} {b : Block}
    {P : List Document → Prop} (h : x.Yields store b P) {docs : List Document}
    (hdocs : (x.process store b).result = .ok docs) : P docs := by
  rw [Yields, hdocs] at h
  exact h

/-- A run yields what all documents have that can come of the block. -/
theorem Indexer.yields_of_documents {x : Indexer} {store : TokenStore} {b : Block}
    {P : List Document → Prop}
    (h : ∀ tokens, ((x.network.digest x.importMode b).resolve store x.names.tokens).result =
        .ok tokens → P ((x.network.digest x.importMode b).documents tokens x.names)) :
    x.Yields store b P := by
  unfold Yields
  cases hresult : (x.process store b).result with
  | ok docs =>
      obtain ⟨tokens, htokens, rfl⟩ := process_result_eq_ok_iff.mp hresult
      exact h tokens htokens
  | error e =>
      simp only [process, Digested.resolve, Consultation.result_bind_eq_error_iff] at hresult
      -- one of the three registries is not resolved
      rcases hresult with (hcreated | ⟨-, -, hheld | ⟨-, -, hremoved | ⟨-, -, ⟨⟩⟩⟩⟩) | ⟨-, -, ⟨⟩⟩
      · exact TokenStore.of_resolve_result_eq_error hcreated
      · exact TokenStore.of_resolve_result_eq_error hheld
      · exact TokenStore.of_resolve_result_eq_error hremoved

theorem TokenStore.exists_resolve_result {store : TokenStore}
    (hanswers : ∀ ids index, ∃ answers, store ids index = .ok answers) (index : String)
    (r : Registry) : ∃ r', (store.resolve index r).result = .ok r' := by
  unfold resolve
  split
  · exact ⟨r, rfl⟩
  · obtain ⟨answers, h⟩ := hanswers r.collections index
    exact ⟨r.resolve answers, by rw [h]; rfl⟩

/-- No block fails with a store that answers everything. -/
theorem Indexer.exists_process_result (x : Indexer) {store : TokenStore}
    (hanswers : ∀ ids index, ∃ answers, store ids index = .ok answers) (b : Block) :
    ∃ docs, (x.process store b).result = .ok docs := by
  have hresolve := TokenStore.exists_resolve_result hanswers x.names.tokens
  obtain ⟨created, hcreated⟩ := hresolve (x.network.digest x.importMode b).findings.created
  obtain ⟨held, hheld⟩ := hresolve (x.network.digest x.importMode b).heldTokens
  obtain ⟨removed, hremoved⟩ := hresolve (x.network.digest x.importMode b).findings.removed
  refine ⟨_, process_result_eq_ok_iff.mpr ⟨⟨created, held, removed⟩, ?_, rfl⟩⟩
  exact Digested.resolve_result_eq_ok_iff.mpr ⟨hcreated, hheld, hremoved⟩

end ChainIndex
