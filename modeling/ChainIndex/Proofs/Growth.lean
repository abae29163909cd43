import ChainIndex.Proofs.Table

/-!
# Lists with more in them

A list grows by elements with a property if it keeps what it had, in the same order, and whatever is
new has the property. What is computed of a list element by element grows along with it
(`GrowsBy.flatMap`). A table keeps one value for each key and puts the keys in order, but it too
grows with the list that it is collected from, if what is new has keys of its own
(`GrowsBy.values_ofList`).

This is how two runs are compared of which the second is given more than the first. The stages of a
run are maps, filters and tables, so it is enough to have one lemma for each of these and to follow
the property of what is new from stage to stage; what a stage does to the elements that both runs
have need not be known.
-/

namespace ChainIndex

/-- The second list has the elements of the first one in their order, and between them others that
have a property. -/
inductive GrowsBy {α : Type} (P : α → Prop) : List α → List α → Prop
  | nil : GrowsBy P [] []
  | keep (a : α) {as as' : List α} (rest : GrowsBy P as as') : GrowsBy P (a :: as) (a :: as')
  | add {a : α} {as as' : List α} (new : P a) (rest : GrowsBy P as as') : GrowsBy P as (a :: as')

namespace GrowsBy

variable {α β : Type} {P : α → Prop} {Q : β → Prop} {as as' bs bs' : List α}

theorem refl (as : List α) : GrowsBy P as as := by
  induction as with
  | nil => exact .nil
  | cons a rest ih => exact .keep a ih

theorem append (h : GrowsBy P as as') (h' : GrowsBy P bs bs') :
    GrowsBy P (as ++ bs) (as' ++ bs') := by
  induction h with
  | nil => exact h'
  | keep a _ ih => exact .keep a ih
  | add new _ ih => exact .add new ih

/-- All of some elements may be new. -/
theorem addAll {new : List α} (hnew : ∀ a ∈ new, P a) (h : GrowsBy P as as') :
    GrowsBy P as (new ++ as') := by
  induction new with
  | nil => exact h
  | cons a rest ih =>
      rw [List.forall_mem_cons] at hnew
      exact .add hnew.1 (ih hnew.2)

theorem mem_or_of_mem (h : GrowsBy P as as') {a : α} (ha : a ∈ as') : a ∈ as ∨ P a := by
  induction h with
  | nil => exact .inl ha
  | keep b _ ih =>
      rcases List.mem_cons.mp ha with rfl | ha
      · exact .inl List.mem_cons_self
      · exact (ih ha).imp_left (List.mem_cons_of_mem b)
  | add new _ ih =>
      rcases List.mem_cons.mp ha with rfl | ha
      · exact .inr new
      · exact ih ha

theorem imp {P' : α → Prop} (himp : ∀ a, P a → P' a) (h : GrowsBy P as as') :
    GrowsBy P' as as' := by
  induction h with
  | nil => exact .nil
  | keep a _ ih => exact .keep a ih
  | add new _ ih => exact .add (himp _ new) ih

/-- Where nothing can be new, nothing is. -/
theorem eq_of_forall_not (hnone : ∀ a, ¬ P a) (h : GrowsBy P as as') : as' = as := by
  induction h with
  | nil => rfl
  | keep a _ ih => rw [ih]
  | add new _ _ => exact absurd new (hnone _)

/-! ### Element by element

All of these come down to `flatMap`: a filter and a map give at most one element for each. -/

theorem flatMap {f : α → List β} (hf : ∀ a, P a → ∀ b ∈ f a, Q b) (h : GrowsBy P as as') :
    GrowsBy Q (as.flatMap f) (as'.flatMap f) := by
  induction h with
  | nil => exact .nil
  | keep a _ ih =>
      rw [List.flatMap_cons, List.flatMap_cons]
      exact (refl (f a)).append ih
  | add new _ ih =>
      rw [List.flatMap_cons]
      exact addAll (hf _ new) ih

theorem filterMap {f : α → Option β} (hf : ∀ a, P a → ∀ b, f a = some b → Q b)
    (h : GrowsBy P as as') : GrowsBy Q (as.filterMap f) (as'.filterMap f) := by
  rw [List.filterMap_eq_flatMap_toList, List.filterMap_eq_flatMap_toList]
  exact h.flatMap fun a ha b hb => hf a ha b (Option.mem_toList.mp hb)

theorem map {f : α → β} (hf : ∀ a, P a → Q (f a)) (h : GrowsBy P as as') :
    GrowsBy Q (as.map f) (as'.map f) := by
  rw [List.map_eq_flatMap, List.map_eq_flatMap]
  exact h.flatMap fun a ha b hb => List.mem_singleton.mp hb ▸ hf a ha

theorem filter (p : α → Bool) (h : GrowsBy P as as') :
    GrowsBy P (as.filter p) (as'.filter p) := by
  have hmap := h.filterMap (Q := P) (f := Option.guard fun a => p a) fun a ha b hb =>
    (Option.guard_eq_some_iff.mp hb).1 ▸ ha
  rwa [List.filterMap_eq_filter] at hmap

/-- A list grows out of any part of it that leaves out what has the property. -/
theorem of_filter {p : α → Bool} (h : ∀ a ∈ as, p a = false → P a) :
    GrowsBy P (as.filter p) as := by
  induction as with
  | nil => exact .nil
  | cons a rest ih =>
      rw [List.forall_mem_cons] at h
      cases hp : p a with
      | true =>
          rw [List.filter_cons_of_pos hp]
          exact .keep a (ih h.2)
      | false =>
          rw [List.filter_cons_of_neg (by simp [hp])]
          exact .add (h.1 hp) (ih h.2)

/-! ### Tables -/

/-- A table with more keys has more entries. The smaller table is found inside the larger one by
leaving out the keys that are new, which is possible because both stand in the same order. -/
theorem entries_of_get? {t t' : Table α} {R : String × α → Prop}
    (hkept : ∀ k v, t.get? k = some v → t'.get? k = some v)
    (hnew : ∀ k v, t'.get? k = some v → k ∉ t.keys → R (k, v)) :
    GrowsBy R t.entries t'.entries := by
  let kept : Table α := ⟨t'.entries.filter fun e => t.contains e.1, t'.ascending.filter _⟩
  have hmem : ∀ k v, kept.get? k = some v ↔ t'.get? k = some v ∧ k ∈ t.keys := by
    intro k v
    rw [Table.get?_eq_some_iff, List.mem_filter, ← Table.get?_eq_some_iff,
      Table.contains_eq_true_iff]
  have heq : t = kept := by
    refine Table.eq_of_get?_eq fun k => Option.ext fun v => ?_
    rw [hmem]
    constructor
    · exact fun hget => ⟨hkept k v hget, Table.mem_keys_iff.mpr ⟨v, hget⟩⟩
    · rintro ⟨hget, hk⟩
      obtain ⟨w, hw⟩ := Table.mem_keys_iff.mp hk
      rw [hw, ← hget, hkept k w hw]
  rw [heq]
  refine of_filter fun e he hnot => hnew e.1 e.2 (Table.get?_eq_some_iff.mpr he) ?_
  rw [← Table.contains_eq_true_iff, hnot]
  exact Bool.false_ne_true

theorem lastValue?_eq {R : String × α → Prop} {es es' : List (String × α)} {key : String}
    (hkey : ∀ e, R e → e.1 ≠ key) (h : GrowsBy R es es') :
    lastValue? key es' = lastValue? key es := by
  induction h with
  | nil => rfl
  | keep e _ ih => rw [lastValue?_cons, ih, lastValue?_cons]
  | add new _ ih => rw [lastValue?_cons, ih, if_neg (hkey _ new), Option.or_none]

/-- A table grows with the list that it is collected from, if what is new has keys of its own. A
new entry with an old key would take the place of what was there, so the condition cannot be left
out. -/
theorem entries_ofList {R : String × α → Prop} {es es' : List (String × α)}
    (hkeys : ∀ e ∈ es, ∀ e', R e' → e'.1 ≠ e.1) (h : GrowsBy R es es') :
    GrowsBy R (Table.ofList es).entries (Table.ofList es').entries := by
  have hold : ∀ k ∈ es.map Prod.fst, lastValue? k es' = lastValue? k es := by
    intro k hk
    obtain ⟨e, he, rfl⟩ := List.mem_map.mp hk
    exact h.lastValue?_eq (hkeys e he)
  refine entries_of_get? (fun k v hget => ?_) fun k v hget hk => ?_
  · rw [Table.get?_ofList] at hget ⊢
    rw [hold k (List.mem_map_of_mem (mem_of_lastValue? hget)), hget]
  · rw [Table.get?_ofList] at hget
    rw [Table.mem_keys_ofList] at hk
    refine (h.mem_or_of_mem (mem_of_lastValue? hget)).resolve_left fun hmem => hk ?_
    exact List.mem_map_of_mem (f := Prod.fst) hmem

/-- The values of a table that is collected by a key of theirs grow along. -/
theorem values_ofList {key : α → String} {f : α → β} (hkeys : ∀ a ∈ as, ∀ a', P a' → key a' ≠ key a)
    (hf : ∀ a, P a → Q (f a)) (h : GrowsBy P as as') :
    GrowsBy Q (Table.ofList (as.map fun a => (key a, f a))).values
      (Table.ofList (as'.map fun a => (key a, f a))).values := by
  have hentries := entries_ofList (R := fun e : String × β => ∃ a, P a ∧ (key a, f a) = e) ?_
    (h.map fun a ha => ⟨a, ha, rfl⟩)
  · refine hentries.map ?_
    rintro _ ⟨a, ha, rfl⟩
    exact hf a ha
  · intro e he
    obtain ⟨a, ha, rfl⟩ := List.mem_map.mp he
    rintro _ ⟨a', ha', rfl⟩
    exact hkeys a ha a' ha'

end GrowsBy

end ChainIndex
