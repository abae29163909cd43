/-!
# Tables in key order

What the library collects by key it gives back in ascending order of the keys, so that the answer
does not depend on the order of collection. That keys ascend is part of the type, hence they are
distinct.
-/

namespace ChainIndex

/-- Entries whose keys ascend. -/
structure Table (α : Type) where
  entries : List (String × α)
  ascending : entries.Pairwise (fun a b => a.1 < b.1)

namespace Table

variable {α β : Type}

/-- No entry. -/
def empty : Table α := ⟨[], .nil⟩

instance : Inhabited (Table α) := ⟨empty⟩

instance : EmptyCollection (Table α) := ⟨empty⟩

/-- The keys in order. -/
def keys (t : Table α) : List String :=
  t.entries.map Prod.fst

/-- The values in order of their keys. -/
def values (t : Table α) : List α :=
  t.entries.map Prod.snd

/-- The number of entries. -/
def size (t : Table α) : Nat :=
  t.entries.length

/-- Whether there is no entry. -/
def isEmpty (t : Table α) : Bool :=
  t.entries.isEmpty

/-- The value of a key among entries. -/
def lookup (key : String) : List (String × α) → Option α
  | [] => none
  | (k, v) :: rest => if k = key then some v else lookup key rest

/-- The value of a key. -/
def get? (t : Table α) (key : String) : Option α :=
  lookup key t.entries

/-- Whether a key has an entry. -/
def contains (t : Table α) (key : String) : Bool :=
  (t.get? key).isSome

/-- Puts a value in its place, given what to make of a value that stands there. -/
def alterEntry (key : String) (f : Option α → α) : List (String × α) → List (String × α)
  | [] => [(key, f none)]
  | (k, v) :: rest =>
    if key < k then (key, f none) :: (k, v) :: rest
    else if k = key then (k, f (some v)) :: rest
    else (k, v) :: alterEntry key f rest

theorem mem_keys_alterEntry {key : String} {f : Option α → α} {es : List (String × α)}
    {k : String} :
    k ∈ (alterEntry key f es).map Prod.fst ↔ k = key ∨ k ∈ es.map Prod.fst := by
  induction es with
  | nil => simp [alterEntry]
  | cons e rest ih =>
    obtain ⟨k', v⟩ := e
    simp only [alterEntry]
    split
    · simp
    · split
      · rename_i h
        subst h
        simp
      · simp only [List.map_cons, List.mem_cons, ih]
        grind

theorem pairwise_alterEntry {key : String} {f : Option α → α} {es : List (String × α)}
    (h : es.Pairwise (fun a b => a.1 < b.1)) :
    (alterEntry key f es).Pairwise (fun a b => a.1 < b.1) := by
  induction es with
  | nil => simp [alterEntry]
  | cons e rest ih =>
    obtain ⟨k', v⟩ := e
    have hrest := (List.pairwise_cons.1 h).2
    have hhead := (List.pairwise_cons.1 h).1
    simp only [alterEntry]
    split
    · rename_i hlt
      refine List.pairwise_cons.2 ⟨fun e he => ?_, h⟩
      rcases List.mem_cons.1 he with rfl | he
      · exact hlt
      · exact String.lt_trans hlt (hhead e he)
    · rename_i hnlt
      split
      · exact List.pairwise_cons.2 ⟨hhead, hrest⟩
      · rename_i hne
        refine List.pairwise_cons.2 ⟨fun e he => ?_, ih hrest⟩
        have hk : e.1 ∈ (alterEntry key f rest).map Prod.fst := List.mem_map_of_mem he
        rcases mem_keys_alterEntry.1 hk with hk | hk
        · have hle : k' ≤ key := String.not_lt.1 hnlt
          rw [hk]
          exact Std.lt_of_le_of_ne hle hne
        · obtain ⟨e', he', hke⟩ := List.mem_map.1 hk
          exact hke ▸ hhead e' he'

/-- Puts a value in its place, given what to make of a value that stands there. -/
def alter (t : Table α) (key : String) (f : Option α → α) : Table α :=
  ⟨alterEntry key f t.entries, pairwise_alterEntry t.ascending⟩

/-- Puts a value in its place, over any value that stands there. -/
def insert (t : Table α) (key : String) (value : α) : Table α :=
  t.alter key fun _ => value

theorem lookup_eq_none_of_lt {k : String} {es : List (String × α)} (h : ∀ e ∈ es, k < e.1) :
    lookup k es = none := by
  induction es with
  | nil => rfl
  | cons e rest ih =>
    obtain ⟨k', v⟩ := e
    have hne : k' ≠ k := fun heq =>
      String.lt_irrefl k (heq ▸ h (k', v) List.mem_cons_self : k < k)
    simp only [lookup, hne, ↓reduceIte]
    exact ih fun e he => h e (List.mem_cons_of_mem _ he)

theorem lookup_alterEntry {key : String} {f : Option α → α} {es : List (String × α)}
    (h : es.Pairwise (fun a b => a.1 < b.1)) (k : String) :
    lookup k (alterEntry key f es) =
      if key = k then some (f (lookup key es)) else lookup k es := by
  induction es with
  | nil => simp [alterEntry, lookup]
  | cons e rest ih =>
    obtain ⟨k', v⟩ := e
    have hrest := (List.pairwise_cons.1 h).2
    have hhead := (List.pairwise_cons.1 h).1
    simp only [alterEntry]
    split
    · rename_i hlt
      have hnone : lookup key ((k', v) :: rest) = none :=
        lookup_eq_none_of_lt fun e he => by
          rcases List.mem_cons.1 he with rfl | he
          · exact hlt
          · exact String.lt_trans hlt (hhead e he)
      rw [hnone]
      rfl
    · split
      · rename_i heq
        subst heq
        simp only [lookup, ↓reduceIte]
        split <;> rfl
      · rename_i hne
        simp only [lookup, ih hrest, hne, ↓reduceIte]
        split
        · rename_i hk
          have hne' : key ≠ k := fun heq => hne (hk.trans heq.symm)
          simp [hne']
        · rfl

/-- After a change, its key has the changed value and every other key the one it had. -/
@[simp] theorem get?_alter (t : Table α) (key : String) (f : Option α → α) (k : String) :
    (t.alter key f).get? k = if key = k then some (f (t.get? key)) else t.get? k :=
  lookup_alterEntry t.ascending k

/-- After a value has been put, its key has that value and every other key the one it had. -/
@[simp] theorem get?_insert (t : Table α) (key : String) (value : α) (k : String) :
    (t.insert key value).get? k = if key = k then some value else t.get? k :=
  get?_alter t key _ k

@[simp] theorem mem_keys_alter {t : Table α} {key : String} {f : Option α → α} {k : String} :
    k ∈ (t.alter key f).keys ↔ k = key ∨ k ∈ t.keys :=
  mem_keys_alterEntry

@[simp] theorem mem_keys_insert {t : Table α} {key : String} {value : α} {k : String} :
    k ∈ (t.insert key value).keys ↔ k = key ∨ k ∈ t.keys :=
  mem_keys_alterEntry

/-- The table of a list of entries, the last entry of a key being the one that counts. -/
def ofList (es : List (String × α)) : Table α :=
  es.foldl (fun t e => t.insert e.1 e.2) empty

/-- Every value replaced by a function of its key and itself. -/
def map (f : String → α → β) (t : Table α) : Table β :=
  ⟨t.entries.map fun e => (e.1, f e.1 e.2), List.pairwise_map.2 t.ascending⟩

/-- Entries with every value replaced by a function of its position and itself, the positions
counted from `i`. -/
def numberFrom (f : Nat → α → β) (i : Nat) : List (String × α) → List (String × β)
  | [] => []
  | (k, v) :: rest => (k, f i v) :: numberFrom f (i + 1) rest

theorem keys_numberFrom (f : Nat → α → β) (i : Nat) (es : List (String × α)) :
    (numberFrom f i es).map Prod.fst = es.map Prod.fst := by
  induction es generalizing i with
  | nil => rfl
  | cons e rest ih => simp [numberFrom, ih]

/-- Every value replaced by a function of its position and itself. -/
def number (f : Nat → α → β) (t : Table α) : Table β :=
  ⟨numberFrom f 0 t.entries, by
    have h : (t.entries.map Prod.fst).Pairwise (· < ·) := List.pairwise_map.2 t.ascending
    rw [← keys_numberFrom f 0] at h
    exact List.pairwise_map.1 h⟩

@[simp] theorem keys_number (f : Nat → α → β) (t : Table α) : (t.number f).keys = t.keys :=
  keys_numberFrom f 0 t.entries

end Table

end ChainIndex
