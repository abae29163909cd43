import ChainIndex.Token.Record

/-!
# Registries of tokens

The tokens that a block deals with, one record for each key, in the order in which the keys were
first met; a later record of a key replaces an earlier one. What the block does not say of a token
is filled in: its type and owner from what earlier blocks have stored, its metadata from the
accounts that hold it.
-/

namespace ChainIndex

/-- What the store answers about one identifier. -/
structure StoredToken where
  found : Bool := false
  id : String := ""
  type : String := ""
  currentOwner : String := ""
deriving Repr, DecidableEq, Inhabited

/-- Tokens with distinct keys. -/
structure Registry where
  entries : List TokenRecord
  distinct : (entries.map TokenRecord.key).Nodup

namespace Registry

/-- No token. -/
def empty : Registry := ⟨[], by simp⟩

instance : Inhabited Registry := ⟨empty⟩

/-- Whether there is no token. -/
def isEmpty (r : Registry) : Bool :=
  r.entries.isEmpty

/-- Puts a token where its key stands, or at the end. -/
def put (t : TokenRecord) : List TokenRecord → List TokenRecord
  | [] => [t]
  | u :: rest => if u.key = t.key then t :: rest else u :: put t rest

theorem mem_keys_put {t : TokenRecord} {ts : List TokenRecord} {k : String} :
    k ∈ (put t ts).map TokenRecord.key ↔ k = t.key ∨ k ∈ ts.map TokenRecord.key := by
  induction ts with
  | nil => simp [put]
  | cons u rest ih =>
    simp only [put]
    split
    · rename_i h
      simp [h]
    · simp only [List.map_cons, List.mem_cons, ih]
      grind

theorem nodup_keys_put {t : TokenRecord} {ts : List TokenRecord}
    (h : (ts.map TokenRecord.key).Nodup) : ((put t ts).map TokenRecord.key).Nodup := by
  induction ts with
  | nil => simp [put]
  | cons u rest ih =>
    simp only [List.map_cons, List.nodup_cons] at h
    simp only [put]
    split
    · rename_i heq
      simpa [← heq] using h
    · rename_i hne
      simp only [List.map_cons, List.nodup_cons, mem_keys_put, not_or]
      exact ⟨⟨hne, h.1⟩, ih h.2⟩

theorem mem_put {t : TokenRecord} {ts : List TokenRecord} (h : (ts.map TokenRecord.key).Nodup)
    {u : TokenRecord} : u ∈ put t ts ↔ u = t ∨ (u ∈ ts ∧ u.key ≠ t.key) := by
  induction ts with
  | nil => simp [put]
  | cons w rest ih =>
    simp only [List.map_cons, List.nodup_cons] at h
    have hw : ∀ x ∈ rest, x.key ≠ w.key := fun x hx heq =>
      h.1 (heq ▸ List.mem_map_of_mem (f := TokenRecord.key) hx)
    simp only [put]
    split
    · rename_i heq
      grind
    · rename_i hne
      simp only [List.mem_cons, ih h.2]
      grind

/-- Adds a token, over any token with the same key. -/
def add (r : Registry) (t : TokenRecord) : Registry :=
  ⟨put t r.entries, nodup_keys_put r.distinct⟩

/-- After a token has been added, it is there, and with it the earlier tokens with other keys. -/
theorem mem_add {r : Registry} {t u : TokenRecord} :
    u ∈ (r.add t).entries ↔ u = t ∨ (u ∈ r.entries ∧ u.key ≠ t.key) :=
  mem_put r.distinct

/-- Changes tokens in place; the change leaves keys as they are. -/
def update (r : Registry) (f : TokenRecord → TokenRecord) (h : ∀ t, (f t).key = t.key) :
    Registry :=
  ⟨r.entries.map f, by
    have hk : TokenRecord.key ∘ f = TokenRecord.key := funext h
    simpa [List.map_map, hk] using r.distinct⟩

/-- The collections of the tokens, one for each token. -/
def collections (r : Registry) : List String :=
  r.entries.map (·.collection)

/-- The tokens to be shown as items on their own. -/
def shownItems (r : Registry) : List TokenRecord :=
  r.entries.filter fun t => t.type != TokenType.semiFungibleAmount

/-- The first token of a collection. -/
def ofCollection? (r : Registry) (collection : String) : Option TokenRecord :=
  r.entries.find? fun t => t.collection == collection

end Registry

/-- A token after an answer of the store, which may be about the token or about its collection. -/
def TokenRecord.resolvedBy (s : StoredToken) (t : TokenRecord) : TokenRecord :=
  if s.found && (t.key == s.id || t.collection == s.id) then
    { t with type := s.type, currentOwner := s.currentOwner }
  else t

@[simp] theorem TokenRecord.key_resolvedBy (s : StoredToken) (t : TokenRecord) :
    (t.resolvedBy s).key = t.key := by
  unfold TokenRecord.resolvedBy
  split <;> rfl

/-- A token after the metadata that the first matching one of some holdings carries. A token
without nonce has none, and metadata that is known already stays. -/
def TokenRecord.describedBy (holdings : List Holding) (t : TokenRecord) : TokenRecord :=
  if t.metadata.isSome || t.nonce == 0 then t
  else
    match holdings.find? fun h => h.identifier == t.collection && h.nonce == t.nonce with
    | none => t
    | some h => { t with metadata := h.metadata.map TokenMetadata.ofRaw }

@[simp] theorem TokenRecord.key_describedBy (holdings : List Holding) (t : TokenRecord) :
    (t.describedBy holdings).key = t.key := by
  unfold TokenRecord.describedBy
  split
  · rfl
  · split <;> rfl

namespace Registry

/-- The tokens with type and owner as the store answers, later answers over earlier ones. -/
def resolve (r : Registry) (answers : List StoredToken) : Registry :=
  answers.foldl (fun r s => r.update (TokenRecord.resolvedBy s) (TokenRecord.key_resolvedBy s)) r

/-- The tokens with metadata from the accounts that hold them. -/
def describe (r : Registry) (accounts : List AlteredAccount) : Registry :=
  let holdings := accounts.flatMap (·.tokens)
  r.update (TokenRecord.describedBy holdings) (TokenRecord.key_describedBy holdings)

end Registry

end ChainIndex
