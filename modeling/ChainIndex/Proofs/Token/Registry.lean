import ChainIndex.Proofs.Events.Reading
import ChainIndex.Search.Store

/-!
# What is removed has an identifier

An event removes an item only if it names a nonce, so the item is known by an identifier of its own
and not by its collection. The answers of the store add a type and an owner and leave the identifier
alone. Therefore the removed items of a block differ in their identifiers, before and after the
store has been asked.

A registry keeps keys apart, and a key is the identifier, or the collection of a token without one.
So it is enough to rule out empty identifiers, and that is an invariant of reading: only one
constructor of `Network.Learns` touches the removed items, and it carries that the nonce is not
zero.
-/

namespace ChainIndex

/-- An item has an identifier. -/
theorem tokenIdentifier_ne_empty {nonce : UInt64} (h : nonce ≠ 0) (collection : String) :
    tokenIdentifier collection nonce ≠ "" := by
  rw [tokenIdentifier, if_neg h]
  intro hempty
  have hchars := congrArg String.toList hempty
  simp [String.toList_append] at hchars

/-- Metadata is all that accounts add to a token. -/
theorem TokenRecord.describedBy_frame (holdings : List Holding) (t : TokenRecord) :
    ∃ metadata, t.describedBy holdings = { t with metadata } := by
  unfold describedBy
  split
  · exact ⟨_, rfl⟩
  · split
    · exact ⟨_, rfl⟩
    · exact ⟨_, rfl⟩

namespace Registry

variable {r : Registry}

/-- Tokens that have identifiers differ in them. -/
theorem nodup_identifier (h : ∀ t ∈ r.entries, t.identifier ≠ "") :
    (r.entries.map (·.identifier)).Nodup := by
  have hkeys : r.entries.map TokenRecord.key = r.entries.map (·.identifier) := by
    refine List.map_congr_left fun t ht => ?_
    rw [TokenRecord.key, if_neg]
    exact fun hempty => h t ht (String.isEmpty_iff.mp hempty)
  rw [← hkeys]
  exact r.distinct

theorem map_identifier_resolve (r : Registry) (answers : List StoredToken) :
    (r.resolve answers).entries.map (·.identifier) = r.entries.map (·.identifier) := by
  rw [resolve]
  induction answers generalizing r with
  | nil => rfl
  | cons s rest ih =>
      rw [List.foldl_cons, ih]
      show (r.entries.map (TokenRecord.resolvedBy s)).map (·.identifier) = _
      rw [List.map_map]
      refine List.map_congr_left fun t _ => ?_
      show (t.resolvedBy s).identifier = t.identifier
      unfold TokenRecord.resolvedBy
      split <;> rfl

end Registry

/-- The answers of the store leave identifiers alone. -/
theorem TokenStore.map_identifier_of_resolve {store : TokenStore} {index : String}
    {r r' : Registry} (h : (store.resolve index r).result = .ok r') :
    r'.entries.map (·.identifier) = r.entries.map (·.identifier) := by
  rw [TokenStore.resolve] at h
  split at h
  · cases h
    rfl
  · dsimp only at h
    cases hanswers : store r.collections index with
    | error e =>
        rw [hanswers] at h
        cases h
    | ok answers =>
        rw [hanswers] at h
        cases h
        exact Registry.map_identifier_resolve r answers

namespace Network

variable {n : Network} {stamp : BlockStamp}

/-- Whatever is read, a removed item has an identifier. -/
theorem Reads.identifier_ne_empty {r r' : Reading} (h : n.Reads stamp r r')
    (hr : ∀ t ∈ r.findings.removed.entries, t.identifier ≠ "") :
    ∀ t ∈ r'.findings.removed.entries, t.identifier ≠ "" := by
  refine h.keeps_findings (P := fun f => ∀ t ∈ f.removed.entries, t.identifier ≠ "") ?_ hr
  intro f f' hlearns hf
  cases hlearns with
  | removed nonce =>
      intro t ht
      rcases Registry.mem_add.mp ht with rfl | ⟨ht, -⟩
      · exact tokenIdentifier_ne_empty nonce _
      · exact hf t ht
  | _ => exact hf

end Network

end ChainIndex
