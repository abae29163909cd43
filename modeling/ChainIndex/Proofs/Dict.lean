import ChainIndex.Dict
import ChainIndex.Proofs.Table

/-!
# Dictionaries and their entries

A dictionary is what its entries make (`Dict.ofList_entries`). What is looked up by key, and what is
put in the order of keys, does not depend on the order in which the dictionary has met its keys
(`Dict.SameEntries`).

Dictionaries are what is read of a block, so their order is one that whoever has written the block
could choose, and every use of it is a use of something that the block does not mean to say. A proof
forgets the order by one of two lemmas, one for look-ups and one for what goes through a table.
-/

namespace ChainIndex.Dict

variable {α : Type} {d d' : Dict α}

/-! ### Putting entries one by one -/

/-- An entry with a new key goes to the end. -/
theorem insertEntry_of_notMem {key : String} {es : List (String × α)}
    (h : key ∉ es.map Prod.fst) (value : α) :
    insertEntry key value es = es ++ [(key, value)] := by
  induction es with
  | nil => rfl
  | cons e rest ih =>
      rw [List.map_cons, List.mem_cons, not_or] at h
      rw [insertEntry, if_neg (Ne.symm h.1), ih h.2, List.cons_append]

/-- Entries with new keys, distinct among themselves, are put behind what is there. -/
theorem entries_foldl_insert {es : List (String × α)} (d : Dict α)
    (h : ((d.entries ++ es).map Prod.fst).Nodup) :
    (es.foldl (fun d e => d.insert e.1 e.2) d).entries = d.entries ++ es := by
  -- the keys of what is there and of what is to come stay distinct as one entry passes over
  induction es generalizing d with
  | nil => rw [List.foldl_nil, List.append_nil]
  | cons e rest ih =>
      have hnew : e.1 ∉ d.entries.map Prod.fst := by
        rw [List.map_append, List.nodup_append] at h
        exact fun hmem => h.2.2 _ hmem _ List.mem_cons_self rfl
      have hinsert : (d.insert e.1 e.2).entries = d.entries ++ [e] :=
        insertEntry_of_notMem hnew e.2
      have happend : (d.insert e.1 e.2).entries ++ rest = d.entries ++ e :: rest := by
        rw [hinsert, List.append_assoc, List.singleton_append]
      rw [List.foldl_cons, ih _ (by rwa [happend]), happend]

/-- A dictionary is made again from its entries. -/
@[simp] theorem ofList_entries (d : Dict α) : ofList d.entries = d := by
  have hentries : (ofList d.entries).entries = d.entries :=
    entries_foldl_insert empty d.distinct
  cases hd : ofList d.entries with
  | mk entries distinct =>
      cases d with
      | mk entries' distinct' =>
          rw [hd] at hentries
          cases hentries
          rfl

/-! ### Entries in another order -/

/-- Two dictionaries have the same entries, in whatever order. -/
def SameEntries (d d' : Dict α) : Prop :=
  d.entries.Perm d'.entries

namespace SameEntries

@[refl] theorem refl (d : Dict α) : d.SameEntries d :=
  List.Perm.refl _

theorem symm (h : d.SameEntries d') : d'.SameEntries d :=
  List.Perm.symm h

theorem perm_values (h : d.SameEntries d') : d.values.Perm d'.values :=
  h.map Prod.snd

/-- Every key has the same value. -/
theorem get?_eq (h : d.SameEntries d') : d'.get? = d.get? := by
  funext key
  apply Option.ext
  intro v
  rw [get?_eq_some_iff, get?_eq_some_iff]
  exact h.mem_iff.symm

/-- The entries are the same in the order of their keys. -/
theorem ofList_entries_eq (h : d.SameEntries d') :
    Table.ofList d'.entries = Table.ofList d.entries := by
  apply Table.eq_of_get?_eq
  intro key
  apply Option.ext
  intro v
  rw [Table.get?_ofList, Table.get?_ofList, lastValue?_eq_some_iff_of_nodup d'.distinct,
    lastValue?_eq_some_iff_of_nodup d.distinct]
  exact h.mem_iff.symm

end SameEntries

/-- Every entry may come first. -/
theorem exists_sameEntries_cons {e : String × α} (he : e ∈ d.entries) :
    ∃ d' : Dict α, d.SameEntries d' ∧ ∃ rest, d'.entries = e :: rest := by
  obtain ⟨front, back, hentries⟩ := List.append_of_mem he
  have hperm : d.entries.Perm (e :: (front ++ back)) := by
    rw [hentries]
    exact List.perm_middle
  exact ⟨⟨_, (hperm.map Prod.fst).nodup_iff.mp d.distinct⟩, hperm, _, rfl⟩

end ChainIndex.Dict
