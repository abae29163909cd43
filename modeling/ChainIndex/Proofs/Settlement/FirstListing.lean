import ChainIndex.Proofs.Settlement

/-!
# Results in the order of their listing

Miniblocks of results may list a hash again and again, and hashes that the pool does not have. What
counts is the place at which a hash is listed first (`FirstListed`): the miniblock there gives its
result a place, and the results that are listed come in the order of these places. All others follow
in the order of their hashes. So every result of the pool has exactly one record, whatever the
miniblocks list (`Network.settle_results_of_first_listings`).

The block notes for each hash a placement, and a placement does not tell where in a miniblock the
hash stands. So the listings are gone through a second time, with their places (`resultListings`);
the notes of the block are what is left when the places are forgotten (`resultPlaces_eq`). In the
list with places the order of the entries is that of their places, and the first entry of a key is
the least one (`lookup_eq_some_iff_least`), which is what being listed first means.
-/

namespace ChainIndex

/-! ### Where a hash is listed -/

/-- Where a hash stands in a block: at a position in a miniblock, which is given with its number. -/
structure ListingPlace where
  miniBlock : MiniBlock
  number : Nat
  position : Nat

/-- One place is in front of another one: in an earlier miniblock, or earlier in the same one. -/
def ListingPlace.Before (l m : ListingPlace) : Prop :=
  l.number < m.number ∨ l.number = m.number ∧ l.position < m.position

/-- A miniblock of results lists a hash, given in hexadecimal, at a place. -/
structure ListsResultAt (miniBlocks : List MiniBlock) (hash : String) (l : ListingPlace) :
    Prop where
  numbered : miniBlocks[l.number]? = some l.miniBlock
  type : l.miniBlock.type = .results
  listed : ∃ raw, l.miniBlock.hashes[l.position]? = some raw ∧ Hex.encode raw = hash

/-- A place is the first one at which miniblocks of results list a hash. -/
structure FirstListed (miniBlocks : List MiniBlock) (hash : String) (l : ListingPlace) :
    Prop where
  lists : ListsResultAt miniBlocks hash l
  first : ∀ m, ListsResultAt miniBlocks hash m → m = l ∨ l.Before m

/-- One hash is listed before another one, where each is listed first. -/
def ListedBefore (miniBlocks : List MiniBlock) (hash hash' : String) : Prop :=
  ∃ l m, FirstListed miniBlocks hash l ∧ FirstListed miniBlocks hash' m ∧ l.Before m

/-- Results that are listed come in the order of their first listing, and all others behind them in
the order of their hashes. -/
structure InListingOrder (miniBlocks : List MiniBlock) (listed others : List ContractResult) :
    Prop where
  isListed : ∀ r ∈ listed, ∃ l, ListsResultAt miniBlocks r.hash l
  byListing : listed.Pairwise fun r s => ListedBefore miniBlocks r.hash s.hash
  isUnlisted : ∀ r ∈ others, ∀ l, ¬ ListsResultAt miniBlocks r.hash l
  byHash : (others.map (·.hash)).Pairwise (· < ·)

/-- The records of the results of a pool, each in its place and all in order. -/
structure Network.ShowsResults (n : Network) (h : Header) (pool : Pool)
    (miniBlocks : List MiniBlock) (results : List ContractResult) : Prop where
  /-- There is one record for each key of the pool, and no other one. -/
  onePerKey : (results.map (·.hash)).Perm pool.results.keys
  made : ∀ r ∈ results, ∃ place entry, pool.results.get? r.hash = some entry ∧
    r = n.resultOf h r.hash place entry
  /-- The miniblock that lists a result first tells where it goes. -/
  placed : ∀ r ∈ results, (∃ l, ListsResultAt miniBlocks r.hash l) →
    ∃ l, FirstListed miniBlocks r.hash l ∧ r.senderShard = l.miniBlock.senderShard ∧
      r.receiverShard = l.miniBlock.receiverShard ∧ r.miniBlockHash = l.miniBlock.hash
  /-- A result that no miniblock lists stays inside the shard. -/
  unplaced : ∀ r ∈ results, (∀ l, ¬ ListsResultAt miniBlocks r.hash l) →
    r.senderShard = h.shard ∧ r.receiverShard = h.shard ∧ r.miniBlockHash = ""
  inOrder : ∃ listed others, results = listed ++ others ∧
    InListingOrder miniBlocks listed others

/-! ### The least value of a key

The relation need not be total. It has to hold between entries as they follow one another, and not
both ways. -/

section Least

variable {α : Type}

/-- Among entries in ascending order a look-up finds the least value of its key. -/
theorem least_of_lookup {R : α → α → Prop} {es : List (String × α)}
    (hes : es.Pairwise fun e e' => R e.2 e'.2) {k : String} {v : α}
    (hv : Dict.lookup k es = some v) : (k, v) ∈ es ∧ ∀ w, (k, w) ∈ es → w = v ∨ R v w := by
  induction es with
  | nil => cases hv
  | cons e rest ih =>
      obtain ⟨k', u⟩ := e
      obtain ⟨hhead, hrest⟩ := List.pairwise_cons.mp hes
      rw [lookup_cons] at hv
      by_cases hk : k' = k
      · subst hk
        rw [if_pos rfl, Option.some.injEq] at hv
        subst hv
        refine ⟨List.mem_cons_self, ?_⟩
        intro w hw
        rcases List.mem_cons.mp hw with heq | hw
        · exact .inl (Prod.mk.inj heq).2
        · exact .inr (hhead _ hw)
      · rw [if_neg hk] at hv
        obtain ⟨hmem, hleast⟩ := ih hrest hv
        refine ⟨List.mem_cons_of_mem _ hmem, ?_⟩
        intro w hw
        rcases List.mem_cons.mp hw with heq | hw
        · exact absurd (Prod.mk.inj heq).1.symm hk
        · exact hleast w hw

theorem lookup_eq_some_iff_least {R : α → α → Prop} (hR : ∀ v w, R v w → ¬ R w v)
    {es : List (String × α)} (hes : es.Pairwise fun e e' => R e.2 e'.2) {k : String} {v : α} :
    Dict.lookup k es = some v ↔ (k, v) ∈ es ∧ ∀ w, (k, w) ∈ es → w = v ∨ R v w := by
  constructor
  · exact least_of_lookup hes
  · intro h
    obtain ⟨hmem, hv⟩ := h
    cases hfound : Dict.lookup k es with
    | none => exact absurd (List.mem_map_of_mem hmem) (lookup_eq_none_iff.mp hfound)
    | some u =>
        obtain ⟨hu, hleast⟩ := least_of_lookup hes hfound
        rcases hv u hu with rfl | hlt
        · rfl
        · rcases hleast v hmem with rfl | hlt'
          · rfl
          · exact absurd hlt' (hR _ _ hlt)

end Least

/-! ### The listings of a block -/

theorem ListingPlace.Before.asymm {l m : ListingPlace} (h : l.Before m) : ¬ m.Before l := by
  unfold Before at *
  omega

/-- The hashes that miniblocks of results list, in order, each with the place where it stands. -/
def resultListings (miniBlocks : List MiniBlock) : List (String × ListingPlace) :=
  (miniBlocks.zipIdx.filter fun b => b.1.type == .results).flatMap fun b =>
    b.1.hashes.zipIdx.map fun e => (Hex.encode e.1, ⟨b.1, b.2, e.2⟩)

section Listings

variable {miniBlocks : List MiniBlock} {hash : String} {l : ListingPlace}

theorem mem_resultListings :
    (hash, l) ∈ resultListings miniBlocks ↔ ListsResultAt miniBlocks hash l := by
  simp only [resultListings, List.mem_flatMap, List.mem_filter, List.mem_map,
    List.mem_zipIdx_iff_getElem?, beq_iff_eq]
  constructor
  · intro h
    obtain ⟨⟨b, i⟩, ⟨hb, htype⟩, ⟨raw, j⟩, hraw, heq⟩ := h
    obtain ⟨rfl, rfl⟩ := Prod.mk.inj heq
    exact ⟨hb, htype, raw, hraw, rfl⟩
  · intro h
    obtain ⟨hb, htype, raw, hraw, rfl⟩ := h
    exact ⟨(l.miniBlock, l.number), ⟨hb, htype⟩, (raw, l.position), hraw, rfl⟩

theorem pairwise_snd_zipIdx {α : Type} (as : List α) :
    as.zipIdx.Pairwise fun a a' => a.2 < a'.2 := by
  rw [← List.pairwise_map (f := Prod.snd), List.zipIdx_map_snd]
  exact List.pairwise_lt_range' 1

/-- Listings come in the order of their places. -/
theorem pairwise_resultListings (miniBlocks : List MiniBlock) :
    (resultListings miniBlocks).Pairwise fun e e' => e.2.Before e'.2 := by
  refine List.pairwise_flatMap.mpr ⟨?_, ?_⟩
  · intro b _
    exact List.pairwise_map.mpr ((pairwise_snd_zipIdx _).imp fun hlt => .inr ⟨rfl, hlt⟩)
  · refine ((pairwise_snd_zipIdx _).filter _).imp ?_
    intro b b' hlt x hx y hy
    obtain ⟨e, -, rfl⟩ := List.mem_map.mp hx
    obtain ⟨e', -, rfl⟩ := List.mem_map.mp hy
    exact .inl hlt

/-- The places that results are given are those of the miniblocks that list them. -/
theorem resultPlaces_eq (miniBlocks : List MiniBlock) :
    resultPlaces miniBlocks =
      (resultListings miniBlocks).map fun e => (e.1, Placement.ofMiniBlock e.2.miniBlock) := by
  have hblocks : miniBlocks.filter (fun b => b.type == .results) =
      (miniBlocks.zipIdx.filter fun b => b.1.type == .results).map Prod.fst := by
    conv_lhs => rw [← List.zipIdx_map_fst 0 miniBlocks, List.filter_map]
    rfl
  have hhashes : ∀ b : MiniBlock,
      (b.hashes.map fun hash => (Hex.encode hash, Placement.ofMiniBlock b)) =
        b.hashes.zipIdx.map fun e => (Hex.encode e.1, Placement.ofMiniBlock b) := by
    intro b
    conv_lhs => rw [← List.zipIdx_map_fst 0 b.hashes, List.map_map]
    rfl
  simp only [resultPlaces, resultListings, hblocks, hhashes, List.flatMap_map, List.map_flatMap,
    List.map_map]
  rfl

theorem mem_firstEntries_resultListings :
    (hash, l) ∈ firstEntries [] (resultListings miniBlocks) ↔ FirstListed miniBlocks hash l := by
  have hasymm : ∀ l m : ListingPlace, l.Before m → ¬ m.Before l :=
    fun _ _ => ListingPlace.Before.asymm
  rw [mem_firstEntries, lookup_eq_some_iff_least hasymm (pairwise_resultListings miniBlocks)]
  simp only [mem_resultListings, List.not_mem_nil, not_false_eq_true, true_and]
  exact ⟨fun h => ⟨h.1, h.2⟩, fun h => ⟨h.lists, h.first⟩⟩

/-- What is listed anywhere is listed somewhere first. -/
theorem ListsResultAt.exists_firstListed (h : ListsResultAt miniBlocks hash l) :
    ∃ m, FirstListed miniBlocks hash m := by
  have hkey := List.mem_map_of_mem (f := Prod.fst) (mem_resultListings.mpr h)
  obtain ⟨⟨_, m⟩, hm, rfl⟩ := List.mem_map.mp (mem_keys_firstEntries.mpr hkey)
  exact ⟨m, mem_firstEntries_resultListings.mp hm⟩

/-- Leaving out repeated hashes and forgetting places can be done in either order, since both go by
the hash alone. -/
theorem firstEntries_resultPlaces (miniBlocks : List MiniBlock) :
    firstEntries [] (resultPlaces miniBlocks) =
      (firstEntries [] (resultListings miniBlocks)).map fun e =>
        (e.1, Placement.ofMiniBlock e.2.miniBlock) := by
  rw [resultPlaces_eq,
    firstEntries_map fun l : ListingPlace => Placement.ofMiniBlock l.miniBlock]

theorem resultPlace_of_firstListed (self : UInt32) (h : FirstListed miniBlocks hash l) :
    resultPlace self miniBlocks hash = .ofMiniBlock l.miniBlock := by
  have hmem : (hash, Placement.ofMiniBlock l.miniBlock) ∈
      firstEntries [] (resultPlaces miniBlocks) := by
    rw [firstEntries_resultPlaces]
    exact List.mem_map_of_mem (mem_firstEntries_resultListings.mpr h)
  rw [← getD_lookup_resultPlaces, (mem_firstEntries.mp hmem).2]
  rfl

theorem resultPlace_of_unlisted (self : UInt32) (h : ∀ l, ¬ ListsResultAt miniBlocks hash l) :
    resultPlace self miniBlocks hash = .unlisted self := by
  have hkey : hash ∉ (resultPlaces miniBlocks).map Prod.fst := by
    rw [resultPlaces_eq, List.map_map]
    intro hmem
    obtain ⟨⟨_, l⟩, hl, rfl⟩ := List.mem_map.mp hmem
    exact h l (mem_resultListings.mp hl)
  rw [← getD_lookup_resultPlaces, lookup_eq_none_iff.mpr hkey]
  rfl

end Listings

/-! ### Results by their listing -/

namespace Network

variable (n : Network) (h : Header) (pool : Pool) (miniBlocks : List MiniBlock)

@[simp] theorem resultOf_hash (hash : String) (place : Placement) (entry : ResultEntry) :
    (n.resultOf h hash place entry).hash = hash :=
  rfl

/-- The results that miniblocks list, in the order of their first listing. -/
def listedResults : List ContractResult :=
  (firstEntries [] (resultListings miniBlocks)).filterMap fun e =>
    (pool.results.get? e.1).map (n.resultOf h e.1 (.ofMiniBlock e.2.miniBlock))

/-- The results that no miniblock lists, in the order of their hashes. -/
def unlistedResults : List ContractResult :=
  ((Table.ofList pool.results.entries).entries.filter fun e =>
    !((firstEntries [] (resultListings miniBlocks)).map Prod.fst).contains e.1).map fun e =>
      n.resultOf h e.1 (.unlisted h.shard) e.2

theorem resultsOf_eq :
    n.resultsOf h pool miniBlocks =
      n.listedResults h pool miniBlocks ++ n.unlistedResults h pool miniBlocks := by
  simp only [resultsOf, listedResults, unlistedResults, firstEntries_resultPlaces,
    List.filterMap_map, List.map_map]
  rfl

/-- The records of results have the keys of the pool as their hashes, each once. -/
theorem perm_hash_resultsOf :
    ((n.resultsOf h pool miniBlocks).map (·.hash)).Perm pool.results.keys := by
  refine (List.perm_ext_iff_of_nodup (nodup_hash_resultsOf n h pool miniBlocks)
    pool.results.distinct).mpr ?_
  intro key
  constructor
  · intro hkey
    obtain ⟨r, hr, rfl⟩ := List.mem_map.mp hkey
    obtain ⟨key, entry, hentry, rfl⟩ := mem_resultsOf.mp hr
    exact List.mem_map_of_mem (Dict.get?_eq_some_iff.mp hentry)
  · intro hkey
    obtain ⟨⟨key, entry⟩, hmem, rfl⟩ := List.mem_map.mp hkey
    have hentry : pool.results.get? key = some entry := Dict.get?_eq_some_iff.mpr hmem
    exact List.mem_map.mpr ⟨_, mem_resultsOf.mpr ⟨key, entry, hentry, rfl⟩, rfl⟩

/-- The results of a block come in the order of their listing. -/
theorem inListingOrder :
    InListingOrder miniBlocks (n.listedResults h pool miniBlocks)
      (n.unlistedResults h pool miniBlocks) where
  isListed := by
    intro r hr
    obtain ⟨⟨hash, l⟩, hl, hmade⟩ := List.mem_filterMap.mp hr
    obtain ⟨entry, -, rfl⟩ := Option.map_eq_some_iff.mp hmade
    exact ⟨l, (mem_firstEntries_resultListings.mp hl).lists⟩
  byListing := by
    have hbefore : (firstEntries [] (resultListings miniBlocks)).Pairwise fun e e' =>
        ListedBefore miniBlocks e.1 e'.1 := by
      have hsorted :=
        (pairwise_resultListings miniBlocks).sublist (firstEntries_sublist [] _)
      refine hsorted.imp_of_mem ?_
      intro e e' he he' hlt
      exact ⟨e.2, e'.2, mem_firstEntries_resultListings.mp he,
        mem_firstEntries_resultListings.mp he', hlt⟩
    refine hbefore.filterMap _ ?_
    intro e e' hlt r hr s hs
    obtain ⟨_, -, rfl⟩ := Option.map_eq_some_iff.mp hr
    obtain ⟨_, -, rfl⟩ := Option.map_eq_some_iff.mp hs
    exact hlt
  isUnlisted := by
    intro r hr l hl
    obtain ⟨e, he, rfl⟩ := List.mem_map.mp hr
    have hkey := List.mem_map_of_mem (f := Prod.fst) (mem_resultListings.mpr hl)
    have hunlisted := (List.mem_filter.mp he).2
    rw [resultOf_hash, ← mem_keys_firstEntries] at hkey
    simp [hkey] at hunlisted
  byHash := by
    rw [unlistedResults, List.map_map]
    exact (Table.pairwise_keys (Table.ofList pool.results.entries)).sublist
      (List.filter_sublist.map Prod.fst)

/-- The pool and the first listings settle the results: there is one for each key of the pool, the
first miniblock that lists it gives its place, and it comes in the order of these listings. -/
theorem settle_results_of_first_listings {block : Block} {h : Header} {pool : Pool}
    (hh : block.header = some h) (hp : block.pool = some pool) (importMode : Bool) :
    n.ShowsResults h pool block.miniBlocks (n.settle block importMode).results := by
  rw [settle_results n hh hp importMode]
  refine ⟨?_, ?_, ?_, ?_, ?_⟩
  · exact perm_hash_resultsOf n h pool block.miniBlocks
  · intro r hr
    obtain ⟨key, entry, hentry, rfl⟩ := mem_resultsOf.mp hr
    exact ⟨_, entry, hentry, rfl⟩
  · intro r hr hlisted
    obtain ⟨_, hlists⟩ := hlisted
    obtain ⟨l, hl⟩ := hlists.exists_firstListed
    refine ⟨l, hl, ?_⟩
    obtain ⟨key, entry, hentry, rfl⟩ := mem_resultsOf.mp hr
    rw [resultOf_hash] at hl
    rw [resultPlace_of_firstListed h.shard hl]
    exact ⟨rfl, rfl, rfl⟩
  · intro r hr hunlisted
    obtain ⟨key, entry, hentry, rfl⟩ := mem_resultsOf.mp hr
    rw [resultOf_hash] at hunlisted
    rw [resultPlace_of_unlisted h.shard hunlisted]
    exact ⟨rfl, rfl, rfl⟩
  · exact ⟨_, _, resultsOf_eq n h pool block.miniBlocks,
      inListingOrder n h pool block.miniBlocks⟩

/-- Two miniblocks list one result three times, then another one; a hash that the pool lacks stands
between them, and a third result is not listed at all. -/
theorem settle_results_of_first_listings_of_repeats :
    let pool : Pool := { results := .ofList [("01", {}), ("02", {}), ("00", {})] }
    let block : Block :=
      { header := some {}
        miniBlocks := [⟨.results, 1, 0, [[2], [9], [2]]⟩, ⟨.results, 2, 0, [[2], [1]]⟩]
        pool := some pool }
    let results := ((default : Network).settle block false).results
    results.map (·.hash) = ["02", "01", "00"] ∧ results.map (·.senderShard) = [1, 2, 0] ∧
      (default : Network).ShowsResults {} pool block.miniBlocks results := by
  intro pool block results
  refine ⟨?_, ?_, settle_results_of_first_listings default rfl rfl false⟩
  · decide
  · decide

end Network

end ChainIndex
