import ChainIndex.Proofs.Table
import ChainIndex.Settlement

/-!
# Every result has one record

The pool keeps results by hash. A block makes one record of each of them, no matter how often and by
how many miniblocks it is listed: `resultPlace` says where the record is placed, `mem_resultsOf`
that the records are those of the pool, and `nodup_hash_resultsOf` that none comes twice.

The program goes through the listings, drops every hash that it has seen, and adds what only the
pool has. Dropping what was seen is the same as looking a key up, which finds its first entry
(`mem_firstEntries`). So the place of a record can be stated without a list of the hashes seen.
-/

namespace ChainIndex

/-! ### First entries -/

section FirstEntries

variable {α β : Type}

theorem lookup_cons (key k : String) (v : α) (rest : List (String × α)) :
    Dict.lookup key ((k, v) :: rest) = if k = key then some v else Dict.lookup key rest :=
  rfl

theorem lookup_eq_none_iff {k : String} {es : List (String × α)} :
    Dict.lookup k es = none ↔ k ∉ es.map Prod.fst := by
  induction es with
  | nil => simp [Dict.lookup]
  | cons e rest ih =>
      obtain ⟨k', v⟩ := e
      rw [lookup_cons]
      by_cases hk : k' = k
      · simp [hk]
      · simp [hk, Ne.symm hk, ih]

/-- What is left of entries are those that a look-up finds, but for the keys that are taken. -/
theorem mem_firstEntries {seen : List String} {es : List (String × α)} {k : String} {v : α} :
    (k, v) ∈ firstEntries seen es ↔ k ∉ seen ∧ Dict.lookup k es = some v := by
  induction es generalizing seen with
  | nil => simp [firstEntries, Dict.lookup]
  | cons e rest ih =>
      obtain ⟨k', w⟩ := e
      rw [firstEntries, lookup_cons]
      by_cases hseen : k' ∈ seen
      · rw [if_pos (List.contains_iff_mem.mpr hseen), ih]
        by_cases hk : k' = k
        · subst hk
          simp [hseen]
        · rw [if_neg hk]
      · rw [if_neg (fun hc => hseen (List.contains_iff_mem.mp hc)), List.mem_cons, ih]
        by_cases hk : k' = k
        · subst hk
          simp [hseen, eq_comm]
        · simp [hk, Ne.symm hk]

/-- A key that is kept counts as seen from then on, so it is not kept again. -/
theorem nodup_keys_firstEntries (seen : List String) (es : List (String × α)) :
    ((firstEntries seen es).map Prod.fst).Nodup := by
  induction es generalizing seen with
  | nil => exact List.nodup_nil
  | cons e rest ih =>
      obtain ⟨k, v⟩ := e
      rw [firstEntries]
      split
      · exact ih seen
      · refine List.nodup_cons.mpr ⟨?_, ih (k :: seen)⟩
        intro hk
        obtain ⟨⟨k', w⟩, he, rfl⟩ := List.mem_map.mp hk
        exact (mem_firstEntries.mp he).1 List.mem_cons_self

theorem firstEntries_sublist (seen : List String) (es : List (String × α)) :
    (firstEntries seen es).Sublist es := by
  induction es generalizing seen with
  | nil => exact List.Sublist.refl _
  | cons e rest ih =>
      obtain ⟨k, v⟩ := e
      rw [firstEntries]
      split
      · exact (ih seen).cons _
      · exact (ih (k :: seen)).cons_cons _

theorem firstEntries_map (f : α → β) (seen : List String) (es : List (String × α)) :
    firstEntries seen (es.map fun e => (e.1, f e.2)) =
      (firstEntries seen es).map fun e => (e.1, f e.2) := by
  induction es generalizing seen with
  | nil => rfl
  | cons e rest ih =>
      obtain ⟨k, v⟩ := e
      rw [List.map_cons, firstEntries, firstEntries]
      split
      · exact ih seen
      · rw [ih, List.map_cons]

/-- Every key has a first entry. -/
theorem mem_keys_firstEntries {es : List (String × α)} {k : String} :
    k ∈ (firstEntries [] es).map Prod.fst ↔ k ∈ es.map Prod.fst := by
  constructor
  · intro hk
    exact ((firstEntries_sublist [] es).map Prod.fst).subset hk
  · intro hk
    cases hfound : Dict.lookup k es with
    | none => exact absurd hk (lookup_eq_none_iff.mp hfound)
    | some v =>
        exact List.mem_map_of_mem (mem_firstEntries.mpr ⟨List.not_mem_nil, hfound⟩)

end FirstEntries

/-- What is made of some elements, under the keys of these, has a part of the keys in their
order. -/
theorem map_filterMap_sublist {α β γ : Type} {key : α → γ} {key' : β → γ}
    {f : α → Option β} (hf : ∀ a b, f a = some b → key' b = key a) (as : List α) :
    ((as.filterMap f).map key').Sublist (as.map key) := by
  induction as with
  | nil => exact List.Sublist.refl _
  | cons a rest ih =>
      cases ha : f a with
      | none =>
          rw [List.filterMap_cons_none ha]
          exact ih.cons (key a)
      | some b =>
          rw [List.filterMap_cons_some ha, List.map_cons, List.map_cons, hf a b ha]
          exact ih.cons_cons (key a)

/-! ### Where a result is placed -/

/-- Whether a miniblock of results lists a hash, given in hexadecimal. -/
def MiniBlock.listsResult (key : String) (b : MiniBlock) : Bool :=
  b.type == .results && (b.hashes.map Hex.encode).contains key

/-- The place of a result: that of the first miniblock of results that lists it, or else inside the
shard of the block. -/
def resultPlace (self : UInt32) (miniBlocks : List MiniBlock) (key : String) : Placement :=
  match miniBlocks.find? (·.listsResult key) with
  | some b => .ofMiniBlock b
  | none => .unlisted self

/-- All hashes of a miniblock have the same place, so a hash that it lists twice makes no
difference. -/
theorem lookup_map_hashes (key : String) (place : Placement) (hashes : List Bytes) :
    Dict.lookup key (hashes.map fun hash => (Hex.encode hash, place)) =
      if (hashes.map Hex.encode).contains key then some place else none := by
  induction hashes with
  | nil => rfl
  | cons hash rest ih =>
      rw [List.map_cons, lookup_cons, ih, List.map_cons]
      by_cases hk : Hex.encode hash = key
      · simp [hk]
      · simp [hk, Ne.symm hk]

theorem lookup_append {α : Type} (key : String) (xs ys : List (String × α)) :
    Dict.lookup key (xs ++ ys) = (Dict.lookup key xs).or (Dict.lookup key ys) := by
  induction xs with
  | nil => rfl
  | cons e rest ih =>
      obtain ⟨k, v⟩ := e
      rw [List.cons_append, lookup_cons, lookup_cons, ih]
      by_cases hk : k = key <;> simp [hk]

/-- The first listing of a hash is that of the first miniblock that lists it. -/
theorem lookup_resultPlaces (key : String) (miniBlocks : List MiniBlock) :
    Dict.lookup key (resultPlaces miniBlocks) =
      (miniBlocks.find? (·.listsResult key)).map .ofMiniBlock := by
  unfold resultPlaces
  induction miniBlocks with
  | nil => rfl
  | cons b rest ih =>
      rw [List.find?_cons, MiniBlock.listsResult]
      by_cases htype : b.type = .results
      · rw [List.filter_cons_of_pos (by rw [htype]; rfl), List.flatMap_cons, lookup_append,
          lookup_map_hashes, ih]
        cases hlist : (b.hashes.map Hex.encode).contains key <;> simp [htype]
      · have hskip : (b.type == .results) = false := by simpa using htype
        rw [List.filter_cons_of_neg (by simpa using htype), ih, hskip, Bool.false_and]

/-- The place of a result, as a look-up among the listings gives it with the place of unlisted
results as a default. -/
theorem getD_lookup_resultPlaces (self : UInt32) (miniBlocks : List MiniBlock) (key : String) :
    (Dict.lookup key (resultPlaces miniBlocks)).getD (.unlisted self) =
      resultPlace self miniBlocks key := by
  rw [lookup_resultPlaces, resultPlace]
  cases miniBlocks.find? (·.listsResult key) <;> rfl

/-! ### The records of a pool -/

/-- Putting the entries of a dictionary in the order of their keys loses none, since no key stands
there twice. -/
theorem get?_ofList_entries {α : Type} (d : Dict α) (key : String) :
    (Table.ofList d.entries).get? key = d.get? key := by
  apply Option.ext
  intro v
  rw [Table.get?_ofList, lastValue?_eq_some_iff_of_nodup d.distinct, Dict.get?_eq_some_iff]

namespace Network

variable {n : Network} {h : Header} {pool : Pool} {miniBlocks : List MiniBlock}

/-- The records of a block's results are those of the pool, each in its place. -/
theorem mem_resultsOf {r : ContractResult} :
    r ∈ n.resultsOf h pool miniBlocks ↔
      ∃ key entry, pool.results.get? key = some entry ∧
        r = n.resultOf h key (resultPlace h.shard miniBlocks key) entry := by
  have hplace : ∀ key place, (key, place) ∈ firstEntries [] (resultPlaces miniBlocks) →
      resultPlace h.shard miniBlocks key = place := by
    intro key place hp
    rw [← getD_lookup_resultPlaces, (mem_firstEntries.mp hp).2]
    rfl
  unfold resultsOf
  -- results that are listed come first, then those that only the pool has
  rw [List.mem_append, List.mem_filterMap, List.mem_map]
  constructor
  · rintro (⟨⟨key, place⟩, hp, hr⟩ | ⟨⟨key, entry⟩, he, rfl⟩)
    · obtain ⟨entry, hentry, rfl⟩ := Option.map_eq_some_iff.mp hr
      exact ⟨key, entry, hentry, by rw [hplace key place hp]⟩
    · obtain ⟨he, hunlisted⟩ := List.mem_filter.mp he
      rw [← Table.get?_eq_some_iff, get?_ofList_entries] at he
      refine ⟨key, entry, he, ?_⟩
      have hkey : key ∉ (firstEntries [] (resultPlaces miniBlocks)).map Prod.fst := by
        simpa using hunlisted
      have hnone : Dict.lookup key (resultPlaces miniBlocks) = none :=
        lookup_eq_none_iff.mpr fun hlisted => hkey (mem_keys_firstEntries.mpr hlisted)
      rw [← getD_lookup_resultPlaces, hnone]
      rfl
  · rintro ⟨key, entry, hentry, rfl⟩
    cases hl : Dict.lookup key (resultPlaces miniBlocks) with
    | some place =>
        have hmem := mem_firstEntries.mpr ⟨List.not_mem_nil, hl⟩
        exact Or.inl ⟨(key, place), hmem, by rw [hentry, hplace key place hmem]; rfl⟩
    | none =>
        refine Or.inr ⟨(key, entry), List.mem_filter.mpr ⟨?_, ?_⟩, ?_⟩
        · rw [← Table.get?_eq_some_iff, get?_ofList_entries]
          exact hentry
        · have hkey : key ∉ (firstEntries [] (resultPlaces miniBlocks)).map Prod.fst :=
            fun hlisted => lookup_eq_none_iff.mp hl (mem_keys_firstEntries.mp hlisted)
          simpa using hkey
        · rw [← getD_lookup_resultPlaces, hl]
          rfl

/-- No two records of results have the same hash. -/
theorem nodup_hash_resultsOf (n : Network) (h : Header) (pool : Pool)
    (miniBlocks : List MiniBlock) :
    ((n.resultsOf h pool miniBlocks).map (·.hash)).Nodup := by
  have hplaces := nodup_keys_firstEntries [] (resultPlaces miniBlocks)
  unfold resultsOf
  set places := firstEntries [] (resultPlaces miniBlocks)
  set listed := places.filterMap fun p =>
    (pool.results.get? p.1).map fun entry => n.resultOf h p.1 p.2 entry
  have hlisted : (listed.map (·.hash)).Sublist (places.map Prod.fst) := by
    apply map_filterMap_sublist
    intro p r hr
    obtain ⟨entry, -, rfl⟩ := Option.map_eq_some_iff.mp hr
    rfl
  rw [List.map_append, List.map_map, List.nodup_append]
  -- what is listed has keys of the listings, and what follows has no such key
  refine ⟨hplaces.sublist hlisted, ?_, ?_⟩
  · exact (Table.nodup_keys _).sublist (List.filter_sublist.map Prod.fst)
  · intro k hk k' hk' heq
    obtain ⟨e, he, rfl⟩ := List.mem_map.mp hk'
    have hunlisted := (List.mem_filter.mp he).2
    have hplaced := hlisted.subset hk
    rw [show k = e.1 from heq] at hplaced
    simp [hplaced] at hunlisted

end Network

end ChainIndex
