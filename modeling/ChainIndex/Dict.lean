/-!
# Dictionaries in the order of first entry

A block lists its records by key, and a later entry of a key replaces an earlier one. `Dict`
keeps the entries in the order in which their keys were first met; that keys are distinct is part
of the type.
-/

namespace ChainIndex

/-- Entries with distinct keys. -/
structure Dict (α : Type) where
  entries : List (String × α)
  distinct : (entries.map Prod.fst).Nodup

namespace Dict

variable {α β : Type}

/-- No entry. -/
def empty : Dict α := ⟨[], by simp⟩

instance : Inhabited (Dict α) := ⟨empty⟩

instance : EmptyCollection (Dict α) := ⟨empty⟩

/-- The keys in order. -/
def keys (d : Dict α) : List String :=
  d.entries.map Prod.fst

/-- The values in order. -/
def values (d : Dict α) : List α :=
  d.entries.map Prod.snd

/-- The number of entries. -/
def size (d : Dict α) : Nat :=
  d.entries.length

/-- Whether there is no entry. -/
def isEmpty (d : Dict α) : Bool :=
  d.entries.isEmpty

/-- The value of a key among entries: that of the first entry with the key. -/
def lookup (key : String) : List (String × α) → Option α
  | [] => none
  | (k, v) :: rest => if k = key then some v else lookup key rest

/-- The value of a key. -/
def get? (d : Dict α) (key : String) : Option α :=
  lookup key d.entries

/-- Whether a key has an entry. -/
def contains (d : Dict α) (key : String) : Bool :=
  (d.get? key).isSome

/-- Puts a value where its key stands, or at the end. -/
def insertEntry (key : String) (value : α) : List (String × α) → List (String × α)
  | [] => [(key, value)]
  | (k, v) :: rest => if k = key then (k, value) :: rest else (k, v) :: insertEntry key value rest

theorem mem_keys_insertEntry {key : String} {value : α} {es : List (String × α)} {k : String} :
    k ∈ (insertEntry key value es).map Prod.fst ↔ k = key ∨ k ∈ es.map Prod.fst := by
  induction es with
  | nil => simp [insertEntry]
  | cons e rest ih =>
    obtain ⟨k', v⟩ := e
    simp only [insertEntry]
    split
    · rename_i h
      subst h
      simp
    · simp only [List.map_cons, List.mem_cons, ih]
      grind

theorem nodup_keys_insertEntry {key : String} {value : α} {es : List (String × α)}
    (h : (es.map Prod.fst).Nodup) : ((insertEntry key value es).map Prod.fst).Nodup := by
  induction es with
  | nil => simp [insertEntry]
  | cons e rest ih =>
    obtain ⟨k', v⟩ := e
    simp only [List.map_cons, List.nodup_cons] at h
    simp only [insertEntry]
    split
    · simpa using h
    · rename_i hne
      simp only [List.map_cons, List.nodup_cons, mem_keys_insertEntry, not_or]
      exact ⟨⟨hne, h.1⟩, ih h.2⟩

/-- Puts a value where its key stands, or at the end. -/
def insert (d : Dict α) (key : String) (value : α) : Dict α :=
  ⟨insertEntry key value d.entries, nodup_keys_insertEntry d.distinct⟩

theorem lookup_insertEntry (key : String) (value : α) (es : List (String × α)) (k : String) :
    lookup k (insertEntry key value es) = if key = k then some value else lookup k es := by
  induction es with
  | nil => simp [insertEntry, lookup]
  | cons e rest ih =>
    obtain ⟨k', v⟩ := e
    simp only [insertEntry]
    split <;> simp only [lookup] <;> grind

/-- After a value has been put, its key has that value and every other key the one it had. -/
@[simp] theorem get?_insert (d : Dict α) (key : String) (value : α) (k : String) :
    (d.insert key value).get? k = if key = k then some value else d.get? k :=
  lookup_insertEntry key value d.entries k

@[simp] theorem mem_keys_insert {d : Dict α} {key : String} {value : α} {k : String} :
    k ∈ (d.insert key value).keys ↔ k = key ∨ k ∈ d.keys :=
  mem_keys_insertEntry

theorem lookup_eq_some_iff {es : List (String × α)} (h : (es.map Prod.fst).Nodup) {k : String}
    {v : α} : lookup k es = some v ↔ (k, v) ∈ es := by
  induction es with
  | nil => simp [lookup]
  | cons e rest ih =>
    obtain ⟨k', v'⟩ := e
    simp only [List.map_cons, List.nodup_cons] at h
    have hk : ∀ w, (k', w) ∉ rest := fun w hw => h.1 (List.mem_map_of_mem (f := Prod.fst) hw)
    simp only [lookup, List.mem_cons, Prod.mk.injEq]
    split
    · rename_i heq
      subst heq
      simp only [Option.some.injEq, true_and]
      exact ⟨fun hv => .inl hv.symm, fun hv => hv.elim Eq.symm fun hw => absurd hw (hk v)⟩
    · rename_i hne
      rw [ih h.2]
      exact ⟨.inr, fun hv => hv.elim (fun hv => absurd hv.1.symm hne) id⟩

/-- The entries are what the keys have. -/
theorem get?_eq_some_iff {d : Dict α} {k : String} {v : α} :
    d.get? k = some v ↔ (k, v) ∈ d.entries :=
  lookup_eq_some_iff d.distinct

/-- The dictionary after a list of entries, the last entry of a key being the one that counts. -/
def ofList (es : List (String × α)) : Dict α :=
  es.foldl (fun d e => d.insert e.1 e.2) empty

/-- Every value replaced by a function of its key and itself. -/
def map (f : String → α → β) (d : Dict α) : Dict β :=
  ⟨d.entries.map fun e => (e.1, f e.1 e.2), by simpa [Function.comp_def] using d.distinct⟩

@[simp] theorem keys_map (f : String → α → β) (d : Dict α) : (d.map f).keys = d.keys := by
  simp [keys, map]

end Dict

end ChainIndex
