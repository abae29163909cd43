import ChainIndex.Table
import Mathlib.Data.List.Nodup

/-!
# Tables of entry lists

A table is mostly collected from a list of entries in which a key may come up again. This module
says what becomes of such a list: a key has the value of its last entry (`Table.get?_ofList`), and
of lists that several sources add one after another, the last source with the key decides
(`lastValue?_flatMap`). What is done to a whole table, by key or by position, is told by what it
does to the look-up of a key.

A table has its keys in ascending order, whatever the list was like, so what a table is can be asked
one key at a time: two tables with the same answers are the same table (`Table.eq_of_get?_eq`). That
is why hardly any proof about a block looks into a list of entries. It states what a key has, and
leaves the order to the table.
-/

namespace ChainIndex

variable {α β γ : Type}

/-! ### The last entry of a key

Inserting goes from the front of a list to its end and forgets what a key had before. `lastValue?`
is the same read off the list itself, by recursion from its end, so it can be taken apart where two
lists are joined. -/

/-- The value of the last entry of a key. -/
def lastValue? (key : String) : List (String × α) → Option α
  | [] => none
  | (k, v) :: rest =>
    match lastValue? key rest with
    | some w => some w
    | none => if k = key then some v else none

@[simp] theorem lastValue?_nil (key : String) : lastValue? key ([] : List (String × α)) = none :=
  rfl

theorem lastValue?_cons (key : String) (e : String × α) (es : List (String × α)) :
    lastValue? key (e :: es) =
      (lastValue? key es).or (if e.1 = key then some e.2 else none) := by
  obtain ⟨k, v⟩ := e
  rw [lastValue?]
  cases lastValue? key es <;> rfl

/-- Later entries go before earlier ones. -/
theorem lastValue?_append (key : String) (xs ys : List (String × α)) :
    lastValue? key (xs ++ ys) = (lastValue? key ys).or (lastValue? key xs) := by
  induction xs with
  | nil => simp
  | cons e rest ih => rw [List.cons_append, lastValue?_cons, ih, lastValue?_cons, Option.or_assoc]

theorem lastValue?_eq_none_iff {key : String} {es : List (String × α)} :
    lastValue? key es = none ↔ key ∉ es.map Prod.fst := by
  induction es with
  | nil => simp
  | cons e rest ih =>
      rw [lastValue?_cons, Option.or_eq_none_iff, ih]
      by_cases hk : e.1 = key
      · simp [hk]
      · simp [hk, Ne.symm hk]

theorem isSome_lastValue?_iff {key : String} {es : List (String × α)} :
    (lastValue? key es).isSome ↔ key ∈ es.map Prod.fst := by
  rw [← Option.ne_none_iff_isSome, Ne, lastValue?_eq_none_iff, Decidable.not_not]

theorem mem_of_lastValue? {key : String} {es : List (String × α)} {v : α}
    (h : lastValue? key es = some v) : (key, v) ∈ es := by
  induction es with
  | nil => simp at h
  | cons e rest ih =>
      rw [lastValue?_cons, Option.or_eq_some_iff] at h
      rcases h with h | ⟨-, h⟩
      · exact List.mem_cons_of_mem _ (ih h)
      · by_cases hk : e.1 = key
        · rw [if_pos hk, Option.some.injEq] at h
          subst hk h
          exact List.mem_cons_self
        · rw [if_neg hk] at h
          exact absurd h (by simp)

/-- Where the entries of a key all have one value, the last entry has it. -/
theorem lastValue?_eq_some_iff_mem {key : String} {es : List (String × α)} {v : α}
    (h : ∀ w w', (key, w) ∈ es → (key, w') ∈ es → w = w') :
    lastValue? key es = some v ↔ (key, v) ∈ es := by
  constructor
  · exact mem_of_lastValue?
  · intro hv
    have hk : key ∈ es.map Prod.fst := List.mem_map_of_mem (f := Prod.fst) hv
    obtain ⟨w, hw⟩ := Option.isSome_iff_exists.mp (isSome_lastValue?_iff.mpr hk)
    rw [hw, h w v (mem_of_lastValue? hw) hv]

/-- Among entries with distinct keys every entry is the last one of its key. -/
theorem lastValue?_eq_some_iff_of_nodup {key : String} {es : List (String × α)} {v : α}
    (h : (es.map Prod.fst).Nodup) : lastValue? key es = some v ↔ (key, v) ∈ es := by
  apply lastValue?_eq_some_iff_mem
  intro w w' hw hw'
  have heq := List.inj_on_of_nodup_map h hw hw' rfl
  exact (Prod.mk.inj heq).2

/-- The last source that has a key at all decides on its value. Miniblocks are such sources: each
lists some hashes, and the last one that lists a hash is looked for. -/
theorem lastValue?_flatMap {key : String} {ps : List β} {f : β → List (String × α)} {v : α} :
    lastValue? key (ps.flatMap f) = some v ↔
      ∃ before p after, ps = before ++ p :: after ∧ lastValue? key (f p) = some v ∧
        ∀ q ∈ after, key ∉ (f q).map Prod.fst := by
  induction ps with
  | nil => simp
  | cons p rest ih =>
      rw [List.flatMap_cons, lastValue?_append, Option.or_eq_some_iff, ih, lastValue?_eq_none_iff]
      -- a later source has the key, or this one is the last that has it
      constructor
      · rintro (⟨before, q, after, rfl, hq, hafter⟩ | ⟨hrest, hp⟩)
        · exact ⟨p :: before, q, after, rfl, hq, hafter⟩
        · refine ⟨[], p, rest, rfl, hp, ?_⟩
          intro q hq hk
          apply hrest
          rw [List.map_flatMap]
          exact List.mem_flatMap.mpr ⟨q, hq, hk⟩
      · rintro ⟨before, q, after, hps, hq, hafter⟩
        cases before with
        | nil =>
            obtain ⟨rfl, rfl⟩ := List.cons.inj hps
            refine Or.inr ⟨?_, hq⟩
            rw [List.map_flatMap]
            intro hk
            obtain ⟨q, hq, hk⟩ := List.mem_flatMap.mp hk
            exact hafter q hq hk
        | cons p' before =>
            obtain ⟨rfl, rfl⟩ := List.cons.inj hps
            exact Or.inl ⟨before, q, after, rfl, hq, hafter⟩

/-- Where some elements have an entry, the last one with an entry of a key decides. -/
theorem lastValue?_map_filter {key : String} {as : List β} {p : β → Bool} {f : β → String}
    {g : β → α} {v : α} :
    lastValue? key ((as.filter p).map fun a => (f a, g a)) = some v ↔
      ∃ before a after, as = before ++ a :: after ∧ (p a = true ∧ f a = key) ∧
        (∀ b ∈ after, ¬ (p b = true ∧ f b = key)) ∧ v = g a := by
  have hentries : (as.filter p).map (fun a => (f a, g a)) =
      as.flatMap fun a => if p a then [(f a, g a)] else [] := by
    induction as with
    | nil => rfl
    | cons a rest ih => cases hp : p a <;> simp [hp, ih]
  have hvalue : ∀ a, lastValue? key (if p a then [(f a, g a)] else []) = some v ↔
      (p a = true ∧ f a = key) ∧ v = g a := by
    intro a
    split <;> simp [*, lastValue?_cons, eq_comm]
  have hkeys : ∀ a, key ∉ (if p a then [(f a, g a)] else []).map Prod.fst ↔
      ¬ (p a = true ∧ f a = key) := by
    intro a
    split <;> simp [*, eq_comm]
  -- every element is a source of at most one entry
  rw [hentries, lastValue?_flatMap]
  simp only [hvalue, hkeys]
  grind

/-- Of elements with distinct keys, one alone has the key that it has. -/
theorem filter_eq_singleton {α : Type} {key : α → String} {as : List α} {a : α}
    (hnodup : (as.map key).Nodup) (ha : a ∈ as) :
    (as.filter fun x => key x == key a) = [a] := by
  induction as with
  | nil => exact absurd ha List.not_mem_nil
  | cons x rest ih =>
      obtain ⟨hx, hrest⟩ := List.nodup_cons.mp hnodup
      rcases List.mem_cons.mp ha with rfl | ha
      · have hnone : (rest.filter fun y => key y == key a) = [] := by
          rw [List.filter_eq_nil_iff]
          intro y hy heq
          exact hx (beq_iff_eq.mp heq ▸ List.mem_map_of_mem hy)
        rw [List.filter_cons, if_pos (beq_self_eq_true _), hnone]
      · have hne : ¬ (key x == key a) = true := fun heq =>
          hx (beq_iff_eq.mp heq ▸ List.mem_map_of_mem ha)
        rw [List.filter_cons, if_neg hne, ih hrest ha]

namespace Table

/-! ### Keys and entries -/

theorem pairwise_keys (t : Table α) : t.keys.Pairwise (· < ·) :=
  List.pairwise_map.mpr t.ascending

theorem nodup_keys (t : Table α) : t.keys.Nodup := by
  refine t.pairwise_keys.imp ?_
  intro a b h heq
  exact String.lt_irrefl b (heq ▸ h)

theorem lookup_eq_some_iff {es : List (String × α)} (h : (es.map Prod.fst).Nodup) {k : String}
    {v : α} : lookup k es = some v ↔ (k, v) ∈ es := by
  induction es with
  | nil => simp [lookup]
  | cons e rest ih =>
      obtain ⟨k', v'⟩ := e
      simp only [List.map_cons, List.nodup_cons] at h
      have hk : ∀ w, (k', w) ∉ rest := fun w hw => h.1 (List.mem_map_of_mem (f := Prod.fst) hw)
      by_cases hkk : k' = k
      · subst hkk
        simp [lookup, hk, eq_comm]
      · simp [lookup, hkk, Ne.symm hkk, ih h.2]

/-- The entries are what the keys have. -/
theorem get?_eq_some_iff {t : Table α} {k : String} {v : α} :
    t.get? k = some v ↔ (k, v) ∈ t.entries :=
  lookup_eq_some_iff t.nodup_keys

theorem mem_keys_iff {t : Table α} {k : String} : k ∈ t.keys ↔ ∃ v, t.get? k = some v := by
  rw [keys, List.mem_map]
  constructor
  · rintro ⟨⟨k', v⟩, he, rfl⟩
    exact ⟨v, get?_eq_some_iff.mpr he⟩
  · rintro ⟨v, hv⟩
    exact ⟨(k, v), get?_eq_some_iff.mp hv, rfl⟩

theorem contains_eq_true_iff {t : Table α} {k : String} :
    t.contains k = true ↔ k ∈ t.keys := by
  rw [contains, Option.isSome_iff_exists, mem_keys_iff]

theorem mem_values_iff {t : Table α} {v : α} : v ∈ t.values ↔ ∃ k, t.get? k = some v := by
  rw [values, List.mem_map]
  constructor
  · rintro ⟨⟨k, w⟩, he, rfl⟩
    exact ⟨k, get?_eq_some_iff.mpr he⟩
  · rintro ⟨k, hv⟩
    exact ⟨(k, v), get?_eq_some_iff.mp hv, rfl⟩

@[simp] theorem length_values (t : Table α) : t.values.length = t.size :=
  List.length_map _

/-- If every value tells its key, the values show the keys. -/
theorem map_values {t : Table α} {f : α → String} (h : ∀ k v, t.get? k = some v → f v = k) :
    t.values.map f = t.keys := by
  rw [values, keys, List.map_map]
  apply List.map_congr_left
  rintro ⟨k, v⟩ he
  exact h k v (get?_eq_some_iff.mpr he)

/-- A table is told by what its keys have. The same look-ups give the same entries in some order,
and there is but one ascending order for them. -/
theorem eq_of_get?_eq {t t' : Table α} (h : ∀ k, t.get? k = t'.get? k) : t = t' := by
  have hmem : ∀ e, e ∈ t.entries ↔ e ∈ t'.entries := fun e => by
    rw [← get?_eq_some_iff (k := e.1), ← get?_eq_some_iff (k := e.1), h]
  have hperm : t.entries.Perm t'.entries :=
    (List.perm_ext_iff_of_nodup (.of_map _ t.nodup_keys) (.of_map _ t'.nodup_keys)).mpr hmem
  have hentries : t.entries = t'.entries := by
    refine hperm.eq_of_pairwise ?_ t.ascending t'.ascending
    intro a b _ _ hab hba
    exact absurd (String.lt_trans hab hba) (String.lt_irrefl a.1)
  obtain ⟨es, hes⟩ := t
  obtain ⟨es', hes'⟩ := t'
  cases hentries
  rfl

/-! ### Tables of lists

The facts about a table that is filled by a fold are by induction over the list, for any table that
there is so far, since inserting the head changes it before the rest is looked at. -/

theorem get?_foldl_insert (es : List (String × α)) (t : Table α) (key : String) :
    (es.foldl (fun t e => t.insert e.1 e.2) t).get? key =
      (lastValue? key es).or (t.get? key) := by
  induction es generalizing t with
  | nil => rfl
  | cons e rest ih =>
      rw [List.foldl_cons, ih, lastValue?_cons, Option.or_assoc, get?_insert]
      congr 1
      by_cases hk : e.1 = key
      · rw [if_pos hk, if_pos hk]
        rfl
      · rw [if_neg hk, if_neg hk]
        rfl

/-- In the table of a list a key has the value of its last entry. -/
theorem get?_ofList (es : List (String × α)) (key : String) :
    (ofList es).get? key = lastValue? key es := by
  rw [ofList, get?_foldl_insert]
  exact Option.or_none

/-- Changes at distinct keys come to what each of them does on its own. -/
theorem get?_foldl_alter {f : β → Option α → α} {es : List (String × β)}
    (h : (es.map Prod.fst).Nodup) (t : Table α) (key : String) :
    (es.foldl (fun t e => t.alter e.1 (f e.2)) t).get? key =
      ((lookup key es).map fun v => f v (t.get? key)).or (t.get? key) := by
  induction es generalizing t with
  | nil => rfl
  | cons e rest ih =>
      obtain ⟨k, v⟩ := e
      obtain ⟨hk, hrest⟩ := List.nodup_cons.mp h
      rw [List.foldl_cons, ih hrest]
      by_cases hkey : k = key
      · -- no other change is at this key
        subst hkey
        have hnone : lookup k rest = none := by
          cases hl : lookup k rest with
          | none => rfl
          | some w =>
              have hmem := (lookup_eq_some_iff hrest).mp hl
              exact absurd (List.mem_map_of_mem (f := Prod.fst) hmem) hk
        simp [lookup, hnone]
      · simp [lookup, hkey]

theorem mem_keys_ofList {es : List (String × α)} {k : String} :
    k ∈ (ofList es).keys ↔ k ∈ es.map Prod.fst := by
  rw [mem_keys_iff, get?_ofList, ← Option.isSome_iff_exists, isSome_lastValue?_iff]

/-- A value of the table of a list is that of an entry. -/
theorem mem_of_mem_values_ofList {es : List (String × α)} {v : α} (h : v ∈ (ofList es).values) :
    v ∈ es.map Prod.snd := by
  obtain ⟨k, hget⟩ := mem_values_iff.mp h
  rw [get?_ofList] at hget
  exact List.mem_map_of_mem (f := Prod.snd) (mem_of_lastValue? hget)

/-- Entries with distinct keys are all there is in their table. -/
theorem perm_entries_ofList {es : List (String × α)} (h : (es.map Prod.fst).Nodup) :
    (ofList es).entries.Perm es := by
  refine (List.perm_ext_iff_of_nodup (.of_map _ (nodup_keys _)) (.of_map _ h)).mpr fun e => ?_
  rw [← get?_eq_some_iff (k := e.1), get?_ofList, lastValue?_eq_some_iff_of_nodup h]

/-- Where a key has no value yet, one more value stands between those that are there. -/
theorem exists_values_insert {t : Table α} {key : String} (v : α) (h : key ∉ t.keys) :
    ∃ front back, t.values = front ++ back ∧ (t.insert key v).values = front ++ v :: back := by
  -- for any list of entries: it need not ascend, since the place is found from the front
  have hentries : ∀ es : List (String × α), key ∉ es.map Prod.fst →
      ∃ front back, es.map Prod.snd = front ++ back ∧
        (alterEntry key (fun _ => v) es).map Prod.snd = front ++ v :: back := by
    intro es
    induction es with
    | nil => exact fun _ => ⟨[], [], rfl, rfl⟩
    | cons e rest ih =>
        intro hkey
        obtain ⟨k, w⟩ := e
        rw [List.map_cons, List.mem_cons, not_or] at hkey
        rw [alterEntry]
        by_cases hlt : key < k
        · rw [if_pos hlt]
          exact ⟨[], _, rfl, rfl⟩
        · obtain ⟨front, back, hrest, hinserted⟩ := ih hkey.2
          rw [if_neg hlt, if_neg (Ne.symm hkey.1)]
          exact ⟨w :: front, back, by rw [List.map_cons, hrest]; rfl,
            by rw [List.map_cons, hinserted]; rfl⟩
  exact hentries t.entries h

/-- Leaving out the entries of one key does not change what the others are looked up as. -/
theorem lastValue?_filter_ne (es : List (String × α)) {key k : String} (h : k ≠ key) :
    lastValue? k (es.filter fun e => e.1 ≠ key) = lastValue? k es := by
  induction es with
  | nil => rfl
  | cons e rest ih =>
      by_cases he : e.1 = key
      · have hk : e.1 ≠ k := fun heq => h (heq ▸ he)
        rw [List.filter_cons_of_neg (by simpa using he), ih, lastValue?_cons, if_neg hk,
          Option.or_none]
      · rw [List.filter_cons_of_pos (by simpa using he), lastValue?_cons, ih, ← lastValue?_cons]

/-- The entries of one key can be put last, since those of other keys do not matter to it. -/
theorem ofList_eq_insert {es : List (String × α)} {key : String} {v : α}
    (h : lastValue? key es = some v) :
    ofList es = (ofList (es.filter fun e => e.1 ≠ key)).insert key v := by
  apply eq_of_get?_eq
  intro k
  rw [get?_insert, get?_ofList, get?_ofList]
  by_cases hk : key = k
  · rw [if_pos hk, ← hk, h]
  · rw [if_neg hk, lastValue?_filter_ne es (Ne.symm hk)]

theorem length_alterEntry_le (key : String) (f : Option α → α) (es : List (String × α)) :
    (alterEntry key f es).length ≤ es.length + 1 := by
  induction es with
  | nil => simp [alterEntry]
  | cons e rest ih =>
      obtain ⟨k, v⟩ := e
      rw [alterEntry]
      split
      · simp
      · split
        · simp
        · simpa using ih

/-- No entry is made up. -/
theorem size_ofList_le (es : List (String × α)) : (ofList es).size ≤ es.length := by
  -- each entry makes the table longer by one at most, whichever table it comes to
  have hfold : ∀ t : Table α,
      (es.foldl (fun t e => t.insert e.1 e.2) t).size ≤ t.size + es.length := by
    induction es with
    | nil => exact fun t => Nat.le_refl _
    | cons e rest ih =>
        intro t
        have hstep : (t.insert e.1 e.2).size ≤ t.size + 1 := length_alterEntry_le ..
        have hrest := ih (t.insert e.1 e.2)
        rw [List.foldl_cons, List.length_cons]
        omega
  have hempty := hfold empty
  rwa [show (empty : Table α).size = 0 from rfl, Nat.zero_add] at hempty

/-! ### Tables of tables -/

@[simp] theorem keys_map (f : String → α → β) (t : Table α) : (t.map f).keys = t.keys := by
  simp [keys, map]

theorem values_map (f : α → β) (t : Table α) : (t.map fun _ a => f a).values = t.values.map f := by
  simp [values, map]

theorem lookup_map (f : String → α → β) (es : List (String × α)) (key : String) :
    lookup key (es.map fun e => (e.1, f e.1 e.2)) = (lookup key es).map (f key) := by
  induction es with
  | nil => rfl
  | cons e rest ih =>
      obtain ⟨k, v⟩ := e
      by_cases hk : k = key
      · subst hk
        simp [lookup]
      · simp [lookup, hk, ih]

@[simp] theorem get?_map (f : String → α → β) (t : Table α) (key : String) :
    (t.map f).get? key = (t.get? key).map (f key) :=
  lookup_map f t.entries key

/-- A view of the values may be taken before or after a value is put in. -/
theorem map_insert (f : α → β) (t : Table α) (key : String) (v : α) :
    ((t.insert key v).map fun _ a => f a) = (t.map fun _ a => f a).insert key (f v) := by
  apply eq_of_get?_eq
  intro k
  rw [get?_map, get?_insert, get?_insert, get?_map]
  split <;> rfl

theorem getElem?_numberFrom (f : Nat → α → β) (start i : Nat) (es : List (String × α)) :
    (numberFrom f start es)[i]? = es[i]?.map fun e => (e.1, f (start + i) e.2) := by
  induction es generalizing start i with
  | nil => rfl
  | cons e rest ih =>
      cases i with
      | zero => rfl
      | succ i =>
          rw [numberFrom, List.getElem?_cons_succ, List.getElem?_cons_succ, ih]
          rw [Nat.add_right_comm, Nat.add_assoc]

/-- Numbering gives the value at a position that position. -/
theorem getElem?_entries_number (f : Nat → α → β) (t : Table α) (i : Nat) :
    (t.number f).entries[i]? = t.entries[i]?.map fun e => (e.1, f i e.2) := by
  rw [number, getElem?_numberFrom, Nat.zero_add]

/-- A value that is numbered was there without a number. -/
theorem exists_of_get?_number {f : Nat → α → β} {t : Table α} {k : String} {w : β}
    (h : (t.number f).get? k = some w) : ∃ v i, t.get? k = some v ∧ w = f i v := by
  obtain ⟨i, hi⟩ := List.mem_iff_getElem?.mp (get?_eq_some_iff.mp h)
  rw [getElem?_entries_number, Option.map_eq_some_iff] at hi
  obtain ⟨⟨k', v⟩, he, heq⟩ := hi
  obtain ⟨rfl, rfl⟩ := Prod.mk.inj heq
  exact ⟨v, i, get?_eq_some_iff.mpr (List.mem_of_getElem? he), rfl⟩

end Table

end ChainIndex
