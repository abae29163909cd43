import ChainIndex.Proofs.Text.Hex
import ChainIndex.Proofs.Token.Registry
import Mathlib.Data.List.Forall2

/-!
# What the store tells of tokens

A registry asks the store about the collection of each of its tokens, and an answer counts for every
token that has the asked name as its collection or as its key. An item has a key with one dash more
than its collection, so where all names of collections have one dash no item is taken for a
collection, and each token gets what the store knows of its own collection
(`TokenStore.exists_resolve_of_answersFrom`). For the same reason the identifier of an item tells
its collection (`collection_eq_of_tokenIdentifier_eq`).

Every answer goes to all tokens, and a later answer writes over an earlier one. It does no harm: the
answers that count for a token are all about its collection, and so they all say the same. The
induction over the answers therefore has a token that already has what is stored of its collection,
or still has nothing, and says that an answer leads from the one to the other or changes nothing
(`TokenRecord.IsBare.resolvedBy_withFacts`).
-/

namespace ChainIndex

/-! ### Names of collections -/

/-- The name of a collection: a ticker and a hash with one dash between them. -/
def IsCollectionName (s : String) : Prop :=
  s.toList.count '-' = 1

instance : DecidablePred IsCollectionName :=
  fun s => inferInstanceAs (Decidable (s.toList.count '-' = 1))

section

variable {collection collection' : String} {nonce nonce' : UInt64}

theorem toList_tokenIdentifier (h : nonce ≠ 0) (collection : String) :
    (tokenIdentifier collection nonce).toList =
      collection.toList ++ '-' :: (Hex.encode (Bytes.ofNat nonce.toNat)).toList := by
  have hdash : "-".toList = ['-'] := by decide
  simp [tokenIdentifier, h, String.toList_append, hdash]

theorem count_dash_tokenIdentifier (h : nonce ≠ 0) (collection : String) :
    (tokenIdentifier collection nonce).toList.count '-' = collection.toList.count '-' + 1 := by
  rw [toList_tokenIdentifier h, List.count_append, List.count_cons_self,
    List.count_eq_zero.mpr (Hex.dash_not_mem_encode _)]

/-- No item is named like a collection. -/
theorem collection_eq_of_tokenIdentifier_eq_name (h : IsCollectionName collection)
    (h' : IsCollectionName collection') (heq : tokenIdentifier collection nonce = collection') :
    collection = collection' := by
  by_cases hnonce : nonce = 0
  · rwa [tokenIdentifier, if_pos hnonce] at heq
  · have hcount := count_dash_tokenIdentifier hnonce collection
    rw [heq] at hcount
    unfold IsCollectionName at h h'
    omega

/-- The identifier tells the collection. -/
theorem collection_eq_of_tokenIdentifier_eq (h : IsCollectionName collection)
    (h' : IsCollectionName collection')
    (heq : tokenIdentifier collection nonce = tokenIdentifier collection' nonce') :
    collection = collection' := by
  by_cases hnonce : nonce = 0
  · rw [tokenIdentifier, if_pos hnonce] at heq
    exact (collection_eq_of_tokenIdentifier_eq_name h' h heq.symm).symm
  by_cases hnonce' : nonce' = 0
  · have hname : tokenIdentifier collection' nonce' = collection' := if_pos hnonce'
    rw [hname] at heq
    exact collection_eq_of_tokenIdentifier_eq_name h h' heq
  · have heq := congrArg String.toList heq
    rw [toList_tokenIdentifier hnonce, toList_tokenIdentifier hnonce'] at heq
    exact String.toList_inj.mp
      (eq_of_append_dash (Hex.dash_not_mem_encode _) (Hex.dash_not_mem_encode _) heq).1

end

/-! ### Tokens before the store is asked -/

/-- A token of a named collection of which neither the type nor the owner is known. -/
structure TokenRecord.IsBare (t : TokenRecord) : Prop where
  isCollectionName : IsCollectionName t.collection
  identifier : ∃ nonce, t.identifier = tokenIdentifier t.collection nonce
  type : t.type = ""
  currentOwner : t.currentOwner = ""

namespace TokenRecord.IsBare

variable {t u : TokenRecord}

theorem key_eq (h : t.IsBare) : t.key = t.identifier := by
  obtain ⟨nonce, hidentifier⟩ := h.identifier
  rw [TokenRecord.key, if_neg]
  intro hempty
  have hname := h.isCollectionName
  rw [hidentifier, String.isEmpty_iff] at hempty
  by_cases hnonce : nonce = 0
  · rw [tokenIdentifier, if_pos hnonce] at hempty
    rw [hempty] at hname
    exact absurd hname (by decide)
  · exact tokenIdentifier_ne_empty hnonce _ hempty

/-- The key tells the collection. -/
theorem collection_eq (ht : t.IsBare) (hu : u.IsBare) (h : t.key = u.key) :
    t.collection = u.collection := by
  obtain ⟨_, hidentifier⟩ := ht.identifier
  obtain ⟨_, hidentifier'⟩ := hu.identifier
  rw [ht.key_eq, hu.key_eq, hidentifier, hidentifier'] at h
  exact collection_eq_of_tokenIdentifier_eq ht.isCollectionName hu.isCollectionName h

/-- A token with the name of a collection as its key belongs to the collection. -/
theorem collection_eq_of_key_eq_name {name : String} (ht : t.IsBare) (hname : IsCollectionName name)
    (h : t.key = name) : t.collection = name := by
  obtain ⟨_, hidentifier⟩ := ht.identifier
  rw [ht.key_eq, hidentifier] at h
  exact collection_eq_of_tokenIdentifier_eq_name ht.isCollectionName hname h

end TokenRecord.IsBare

/-! ### What a store knows -/

/-- What is stored of a collection. -/
structure CollectionFacts where
  type : String := ""
  currentOwner : String := ""

/-- What is stored of all collections. -/
abbrev KnownCollections := String → Option CollectionFacts

/-- What is stored of a collection, nothing if it is unknown. -/
def KnownCollections.facts (known : KnownCollections) (collection : String) : CollectionFacts :=
  (known collection).getD {}

/-- An answer about an identifier tells what is stored under it. -/
def StoredToken.Tells (s : StoredToken) (known : KnownCollections) (id : String) : Prop :=
  s.id = id ∧
    match known id with
    | none => s.found = false
    | some facts =>
      s.found = true ∧ s.type = facts.type ∧ s.currentOwner = facts.currentOwner

/-- A store answers about each identifier in order. -/
def TokenStore.AnswersFrom (store : TokenStore) (index : String) (known : KnownCollections) :
    Prop :=
  ∀ ids, ∃ answers, store ids index = .ok answers ∧
    List.Forall₂ (fun id s => s.Tells known id) ids answers

/-- The store that answers what is known. -/
def KnownCollections.store (known : KnownCollections) : TokenStore :=
  fun ids _ => .ok (ids.map fun id =>
    { found := (known id).isSome
      id
      type := (known.facts id).type
      currentOwner := (known.facts id).currentOwner })

theorem KnownCollections.answersFrom_store (known : KnownCollections) (index : String) :
    known.store.AnswersFrom index known := by
  refine fun ids => ⟨_, rfl, List.forall₂_map_right_iff.mpr (List.forall₂_same.mpr fun id _ => ?_)⟩
  refine ⟨rfl, ?_⟩
  unfold KnownCollections.facts
  cases known id with
  | none => rfl
  | some facts => exact ⟨rfl, rfl, rfl⟩

/-- A token with what is stored of its collection. -/
def TokenRecord.withFacts (facts : CollectionFacts) (t : TokenRecord) : TokenRecord :=
  { t with type := facts.type, currentOwner := facts.currentOwner }

theorem TokenRecord.IsBare.withFacts_eq {t : TokenRecord} (h : t.IsBare) : t.withFacts {} = t := by
  have htype := h.type
  have howner := h.currentOwner
  cases t
  cases htype
  cases howner
  rfl

section

variable {known : KnownCollections} {t : TokenRecord}

/-- One answer: it counts for the tokens of the collection that was asked about. A token for which
an earlier answer has counted already is not changed by another one. -/
theorem TokenRecord.IsBare.resolvedBy_withFacts (ht : t.IsBare) {s : StoredToken} {id : String}
    (hs : s.Tells known id) (hid : IsCollectionName id) {facts : CollectionFacts}
    (hfacts : facts = {} ∨ facts = known.facts t.collection) :
    (t.withFacts facts).resolvedBy s =
      if t.collection = id then t.withFacts (known.facts t.collection)
      else t.withFacts facts := by
  obtain ⟨rfl, hs⟩ := hs
  unfold TokenRecord.resolvedBy
  have hkey : (t.withFacts facts).key = t.key := rfl
  have hcollection : (t.withFacts facts).collection = t.collection := rfl
  rw [hkey, hcollection]
  by_cases hmine : t.collection = s.id
  -- of a collection that is not stored nothing is known, so there is nothing to lose
  · rw [if_pos hmine]
    rw [← hmine] at hs
    unfold KnownCollections.facts at hfacts ⊢
    cases hknown : known t.collection with
    | none =>
        rw [hknown] at hs hfacts
        rw [hs, if_neg (by simp), or_self_iff.mp hfacts]
        rfl
    | some facts' =>
        rw [hknown] at hs
        rw [hs.1, hs.2.1, hs.2.2, if_pos (by simp [hmine])]
        rfl
  · have hother : t.key ≠ s.id := fun heq => hmine (ht.collection_eq_of_key_eq_name hid heq)
    rw [if_neg hmine, if_neg (by simp [hmine, hother])]

/-- All answers: a token gets what is stored of its collection once that was asked about. -/
theorem TokenRecord.IsBare.foldl_resolvedBy (ht : t.IsBare) {ids : List String}
    {answers : List StoredToken} (hids : ∀ id ∈ ids, IsCollectionName id)
    (h : List.Forall₂ (fun id s => s.Tells known id) ids answers) {facts : CollectionFacts}
    (hfacts : facts = {} ∨ facts = known.facts t.collection) :
    answers.foldl (fun t s => t.resolvedBy s) (t.withFacts facts) =
      if t.collection ∈ ids then t.withFacts (known.facts t.collection)
      else t.withFacts facts := by
  induction h generalizing facts with
  | nil => rfl
  | @cons id s ids answers hs _ ih =>
      rw [List.forall_mem_cons] at hids
      rw [List.foldl_cons, ht.resolvedBy_withFacts hs hids.1 hfacts]
      by_cases hmine : t.collection = id
      · rw [if_pos hmine, ih hids.2 (.inr rfl), ite_self, if_pos (by simp [hmine])]
      · rw [if_neg hmine, ih hids.2 hfacts]
        simp only [List.mem_cons, hmine, false_or]

end

namespace Registry

/-- The answers go to each token on its own. -/
theorem entries_resolve (r : Registry) (answers : List StoredToken) :
    (r.resolve answers).entries =
      r.entries.map fun t => answers.foldl (fun t s => t.resolvedBy s) t := by
  rw [resolve]
  induction answers generalizing r with
  | nil => simp
  | cons s rest ih =>
      rw [List.foldl_cons, ih]
      show (r.entries.map (TokenRecord.resolvedBy s)).map _ = _
      rw [List.map_map]
      rfl

/-- The requests that are made for a registry: one with the collections of its tokens in their
order, or none if it has no token. -/
def requests (index : String) (r : Registry) : List StoreCall :=
  if r.entries = [] then [] else [⟨r.entries.map (·.collection), index⟩]

theorem exists_call_of_mem_collections {r : Registry} {collection : String}
    (h : collection ∈ r.entries.map (·.collection)) (index : String) :
    ∃ call ∈ r.requests index, collection ∈ call.ids := by
  have hentries : r.entries ≠ [] := by
    intro hnil
    rw [hnil] at h
    exact nomatch h
  rw [requests, if_neg hentries]
  exact ⟨_, List.mem_singleton_self _, h⟩

end Registry

theorem Registry.of_ofCollection? {r : Registry} {collection : String} {t : TokenRecord}
    (h : r.ofCollection? collection = some t) : t ∈ r.entries ∧ t.collection = collection := by
  have hmine := List.find?_some (p := fun t : TokenRecord => t.collection == collection) h
  exact ⟨List.mem_of_find?_eq_some h, beq_iff_eq.mp hmine⟩

namespace TokenStore

theorem resolve_of_nil {r : Registry} (h : r.entries = []) (store : TokenStore) (index : String) :
    store.resolve index r = .of r := by
  rw [resolve, Registry.isEmpty, if_pos (List.isEmpty_iff.mpr h)]

theorem resolve_of_ne_nil {r : Registry} (h : r.entries ≠ []) (store : TokenStore)
    (index : String) :
    store.resolve index r = ⟨r.requests index,
      (store (r.entries.map (·.collection)) index).map r.resolve⟩ := by
  rw [resolve, Registry.isEmpty, if_neg (fun hempty => h (List.isEmpty_iff.mp hempty)),
    Registry.requests, if_neg h]
  rfl

theorem calls_resolve (store : TokenStore) (index : String) (r : Registry) :
    (store.resolve index r).calls = r.requests index := by
  by_cases h : r.entries = []
  · rw [resolve_of_nil h, Registry.requests, if_pos h]
    rfl
  · rw [resolve_of_ne_nil h]

/-- Each token gets what is stored of its collection. -/
theorem exists_resolve_of_answersFrom {store : TokenStore} {index : String}
    {known : KnownCollections} (hstore : store.AnswersFrom index known) {r : Registry}
    (hr : ∀ t ∈ r.entries, t.IsBare) :
    ∃ r', (store.resolve index r).result = .ok r' ∧
      r'.entries = r.entries.map fun t => t.withFacts (known.facts t.collection) := by
  unfold resolve
  split
  · next hempty =>
      have hnil : r.entries = [] := List.isEmpty_iff.mp hempty
      exact ⟨r, rfl, by rw [hnil]; rfl⟩
  · obtain ⟨answers, hanswers, htells⟩ := hstore r.collections
    refine ⟨r.resolve answers, by rw [hanswers]; rfl, ?_⟩
    rw [Registry.entries_resolve]
    refine List.map_congr_left fun t ht => ?_
    have hids : ∀ id ∈ r.collections, IsCollectionName id := by
      intro id hid
      obtain ⟨u, hu, rfl⟩ := List.mem_map.mp hid
      exact (hr u hu).isCollectionName
    have hasked : t.collection ∈ r.collections := List.mem_map_of_mem ht
    have hrun := (hr t ht).foldl_resolvedBy hids htells (.inl rfl)
    rwa [(hr t ht).withFacts_eq, if_pos hasked] at hrun

end TokenStore

/-! ### Adding tokens one after another

A token may be replaced by a later one with its key. Where names are well formed the two are the
same item of the same collection, so for what is asked below it does not matter which one stays. -/

namespace Registry

variable {r : Registry} {ts : List TokenRecord} {t : TokenRecord}

theorem mem_or_mem_of_mem_foldl_add (h : t ∈ (ts.foldl add r).entries) :
    t ∈ r.entries ∨ t ∈ ts := by
  induction ts generalizing r with
  | nil => exact .inl h
  | cons u rest ih =>
      rcases ih h with h | h
      · rcases mem_add.mp h with rfl | ⟨h, -⟩
        · exact .inr List.mem_cons_self
        · exact .inl h
      · exact .inr (List.mem_cons_of_mem u h)

/-- Once a key has been added, some token stands under it. -/
theorem exists_mem_foldl_add (h : (∃ u ∈ r.entries, u.key = t.key) ∨ t ∈ ts) :
    ∃ u ∈ (ts.foldl add r).entries, u.key = t.key := by
  induction ts generalizing r with
  | nil => exact h.resolve_right List.not_mem_nil
  | cons v rest ih =>
      refine ih ?_
      rcases h with ⟨u, hu, hkey⟩ | h
      · by_cases hv : u.key = v.key
        · exact .inl ⟨v, mem_add.mpr (.inl rfl), hv.symm.trans hkey⟩
        · exact .inl ⟨u, mem_add.mpr (.inr ⟨hu, hv⟩), hkey⟩
      · rcases List.mem_cons.mp h with rfl | h
        · exact .inl ⟨t, mem_add.mpr (.inl rfl), rfl⟩
        · exact .inr h

/-- Of tokens whose names are well formed, some token of each item stays, and it is of the same
collection: what takes its place has its key, and the key tells the collection. -/
theorem exists_mem_foldl_add_iff (hts : ∀ t ∈ ts, t.IsBare) {P : String → Prop} {id : String} :
    (∃ t ∈ (ts.foldl add .empty).entries, P t.collection ∧ t.identifier = id) ↔
      ∃ t ∈ ts, P t.collection ∧ t.identifier = id := by
  have hfrom : ∀ t ∈ (ts.foldl add .empty).entries, t ∈ ts := fun t ht =>
    (mem_or_mem_of_mem_foldl_add ht).resolve_left List.not_mem_nil
  constructor
  · rintro ⟨t, ht, hP, hid⟩
    exact ⟨t, hfrom t ht, hP, hid⟩
  · rintro ⟨t, ht, hP, hid⟩
    obtain ⟨u, hu, hkey⟩ := exists_mem_foldl_add (r := .empty) (.inr ht)
    have hbare := hts u (hfrom u hu)
    refine ⟨u, hu, ?_, ?_⟩
    · rwa [hbare.collection_eq (hts t ht) hkey]
    · rw [← hbare.key_eq, hkey, (hts t ht).key_eq, hid]

end Registry

end ChainIndex
