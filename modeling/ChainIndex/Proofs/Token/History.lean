import ChainIndex.Proofs.Positional.Registry
import ChainIndex.Proofs.Token.Describe
import ChainIndex.Proofs.Token.Resolve
import Mathlib.Data.List.Induction

/-!
# What has been done to a registry

A registry is filled token by token, and in between the store is asked for types and owners, and the
accounts of the block for metadata. Whatever is done in whatever order, a token of the registry is
the last one that was added with its key, changed by what store and accounts have told since and in
nothing else, and the keys stand in the order in which they were first added. The position that is
kept for a key is that of its token (`Positional.IndexedRegistry.run_isLedTo`).

The steps are taken apart from behind. A token is there after one step more because the step has
added it, or because it was there and the step has passed it on; a step that adds a token with the
same key does not pass it on, it replaces it. What a token has become since it was added is kept as
the list of the steps since then, and with every step that passes it on the list grows by one
(`TokenRecord.IsLastAdded.pass`).

That a step changes a token in certain fields only is said by taking these fields away: both are
equal without them (`TokenRecord.untold`). The key is among what is left, so a token never moves to
another key.
-/

namespace ChainIndex

/-- Something done to a registry. -/
inductive RegistryStep where
  /-- A token is added. -/
  | add (t : TokenRecord)
  /-- The store has answered. -/
  | resolve (answers : List StoredToken)
  /-- The accounts of a block are asked for metadata. -/
  | describe (accounts : List AlteredAccount)

/-- A registry after something has been done to it. -/
def Registry.apply (r : Registry) : RegistryStep → Registry
  | .add t => r.add t
  | .resolve answers => r.resolve answers
  | .describe accounts => r.describe accounts

/-- The registry after a number of steps, empty before them. -/
def Registry.after (steps : List RegistryStep) : Registry :=
  steps.foldl apply empty

namespace RegistryStep

/-- The key under which a token is added. -/
def addedKey? : RegistryStep → Option String
  | .add t => some t.key
  | .resolve _ => none
  | .describe _ => none

/-- What becomes of a token that stays. -/
def pass : RegistryStep → TokenRecord → TokenRecord
  | .add _, t => t
  | .resolve answers, t => answers.foldl (fun t s => t.resolvedBy s) t
  | .describe accounts, t => t.describedBy (accounts.flatMap (·.tokens))

end RegistryStep

/-- A token without what store and accounts tell of tokens. -/
def TokenRecord.untold (t : TokenRecord) : TokenRecord :=
  { t with type := "", currentOwner := "", metadata := none }

/-- What was done since a token was added has made it `t`. -/
structure TokenRecord.Becomes (since : List RegistryStep) (added t : TokenRecord) : Prop where
  key : t.key = added.key
  /-- No other token was added with the key. -/
  last : ∀ step ∈ since, step.addedKey? ≠ some t.key
  eq_foldl : t = since.foldl (fun t step => step.pass t) added
  untold : t.untold = added.untold

/-- A token is what has become of the one last added with its key. -/
def TokenRecord.IsLastAdded (steps : List RegistryStep) (t : TokenRecord) : Prop :=
  ∃ before added since, steps = before ++ .add added :: since ∧ added.Becomes since t

/-! ### What becomes of a token -/

namespace TokenRecord

theorem untold_resolvedBy (s : StoredToken) (t : TokenRecord) :
    (t.resolvedBy s).untold = t.untold := by
  unfold resolvedBy
  split <;> rfl

theorem untold_foldl_resolvedBy (answers : List StoredToken) (t : TokenRecord) :
    (answers.foldl (fun t s => t.resolvedBy s) t).untold = t.untold := by
  induction answers generalizing t with
  | nil => rfl
  | cons s rest ih => rw [List.foldl_cons, ih, untold_resolvedBy]

theorem untold_describedBy (holdings : List Holding) (t : TokenRecord) :
    (t.describedBy holdings).untold = t.untold := by
  show (t.describedBy holdings).undescribed.untold = t.undescribed.untold
  rw [undescribed_describedBy]

end TokenRecord

namespace RegistryStep

/-- A step changes nothing of a token but what store and accounts tell. -/
@[simp] theorem untold_pass (step : RegistryStep) (t : TokenRecord) :
    (step.pass t).untold = t.untold := by
  cases step with
  | add _ => rfl
  | resolve answers => exact TokenRecord.untold_foldl_resolvedBy answers t
  | describe accounts => exact TokenRecord.untold_describedBy _ t

/-- The key is not among what they tell. -/
@[simp] theorem key_pass (step : RegistryStep) (t : TokenRecord) : (step.pass t).key = t.key := by
  show (step.pass t).untold.key = t.untold.key
  rw [untold_pass]

end RegistryStep

/-! ### One step -/

namespace Registry

variable {r : Registry} {step : RegistryStep} {t : TokenRecord}

/-- A step that adds nothing changes the tokens where they stand. -/
theorem entries_apply (h : step.addedKey? = none) :
    (r.apply step).entries = r.entries.map step.pass := by
  cases step with
  | add t => cases h
  | resolve answers => exact entries_resolve r answers
  | describe accounts => rfl

/-- After a step there are the token that was added and what became of those with other keys. -/
theorem mem_apply : t ∈ (r.apply step).entries ↔
    step = .add t ∨ ∃ u ∈ r.entries, step.addedKey? ≠ some u.key ∧ t = step.pass u := by
  cases step with
  | add added =>
      rw [apply, mem_add]
      simp only [RegistryStep.addedKey?, RegistryStep.pass, RegistryStep.add.injEq]
      grind
  | resolve answers =>
      rw [entries_apply rfl, List.mem_map]
      simp [RegistryStep.addedKey?, eq_comm]
  | describe accounts =>
      rw [entries_apply rfl, List.mem_map]
      simp [RegistryStep.addedKey?, eq_comm]

theorem keys_apply (h : step.addedKey? = none) :
    (r.apply step).entries.map TokenRecord.key = r.entries.map TokenRecord.key := by
  rw [entries_apply h, List.map_map]
  exact List.map_congr_left fun t _ => step.key_pass t

/-- A key that is known stays where it stands, and a new one comes last. -/
theorem keys_add (r : Registry) (t : TokenRecord) :
    (r.add t).entries.map TokenRecord.key =
      if t.key ∈ r.entries.map TokenRecord.key then r.entries.map TokenRecord.key
      else r.entries.map TokenRecord.key ++ [t.key] := by
  show (put t r.entries).map TokenRecord.key = _
  split
  · next hmem =>
      have hknown : (r.entries.map TokenRecord.key).idxOf? t.key ≠ none :=
        fun hnone => List.idxOf?_eq_none_iff.mp hnone hmem
      obtain ⟨i, hi⟩ := Option.ne_none_iff_exists'.mp hknown
      exact (Positional.IndexedRegistry.put_of_idxOf?_eq_some hi).2.2
  · next hnew =>
      rw [Positional.IndexedRegistry.put_of_not_mem hnew, List.map_append, List.map_singleton]

end Registry

/-! ### All steps -/

/-- A list without repetitions gets longer by what is new. -/
theorem eraseDups_concat {α : Type} [DecidableEq α] (keys : List α) (key : α) :
    (keys ++ [key]).eraseDups =
      if key ∈ keys then keys.eraseDups else keys.eraseDups ++ [key] := by
  rw [List.eraseDups_append]
  split
  · next h => simp [List.removeAll, h]
  · next h => simp [List.removeAll, h, List.eraseDups_cons]

namespace Registry

variable {steps : List RegistryStep} {step : RegistryStep} {t : TokenRecord}

theorem after_concat (steps : List RegistryStep) (step : RegistryStep) :
    after (steps ++ [step]) = (after steps).apply step := by
  rw [after, List.foldl_concat]
  rfl

/-- The keys stand in the order in which they were first added. -/
theorem keys_after (steps : List RegistryStep) :
    (after steps).entries.map TokenRecord.key =
      (steps.filterMap RegistryStep.addedKey?).eraseDups := by
  induction steps using List.reverseRecOn with
  | nil => rfl
  | append_singleton steps step ih =>
      rw [after_concat, List.filterMap_append]
      cases step with
      | add t =>
          have hkey : [RegistryStep.add t].filterMap RegistryStep.addedKey? = [t.key] := rfl
          have hmem : t.key ∈ (after steps).entries.map TokenRecord.key ↔
              t.key ∈ steps.filterMap RegistryStep.addedKey? := by
            rw [ih, List.mem_eraseDups]
          rw [apply, keys_add, hkey, eraseDups_concat, ih]
          simp only [← ih, hmem]
      | resolve answers =>
          have hnone : [RegistryStep.resolve answers].filterMap RegistryStep.addedKey? = [] := rfl
          rw [keys_apply rfl, ih, hnone, List.append_nil]
      | describe accounts =>
          have hnone : [RegistryStep.describe accounts].filterMap RegistryStep.addedKey? = [] := rfl
          rw [keys_apply rfl, ih, hnone, List.append_nil]

end Registry

namespace TokenRecord

variable {steps : List RegistryStep} {step : RegistryStep} {t : TokenRecord}

/-- The token that was added last of all. -/
theorem isLastAdded_concat (steps : List RegistryStep) (t : TokenRecord) :
    t.IsLastAdded (steps ++ [.add t]) :=
  ⟨steps, t, [], rfl, ⟨rfl, List.forall_mem_nil _, rfl, rfl⟩⟩

/-- A step that adds no token with the same key passes on what has become of a token. -/
theorem IsLastAdded.pass (h : t.IsLastAdded steps) (hstep : step.addedKey? ≠ some t.key) :
    (step.pass t).IsLastAdded (steps ++ [step]) := by
  obtain ⟨before, added, since, rfl, hbecomes⟩ := h
  refine ⟨before, added, since ++ [step], by simp, ?_⟩
  constructor
  · rw [RegistryStep.key_pass, hbecomes.key]
  · rw [RegistryStep.key_pass, List.forall_mem_append, List.forall_mem_singleton]
    exact ⟨hbecomes.last, hstep⟩
  · rw [List.foldl_concat, ← hbecomes.eq_foldl]
  · rw [RegistryStep.untold_pass, hbecomes.untold]

end TokenRecord

/-- Every token is the one that was last added with its key. -/
theorem Registry.isLastAdded_of_mem_after {steps : List RegistryStep} {t : TokenRecord}
    (h : t ∈ (after steps).entries) : t.IsLastAdded steps := by
  induction steps using List.reverseRecOn generalizing t with
  | nil => exact absurd h List.not_mem_nil
  | append_singleton steps step ih =>
      rw [after_concat] at h
      -- the token was added just now, or it has passed from before
      rcases mem_apply.mp h with hadded | ⟨u, hu, hkey, rfl⟩
      · rw [hadded]
        exact TokenRecord.isLastAdded_concat steps t
      · exact (ih hu).pass hkey

/-! ### A registry that is only filled

Nothing changes a token between two additions, so a token that stays is one of those added, and the
last one with its key. -/

/-- A registry has been filled with tokens: its keys stand in the order in which the tokens bring
them first, and under each key stands the last token that has it. -/
structure Registry.FilledWith (r : Registry) (ts : List TokenRecord) : Prop where
  order : r.entries.map TokenRecord.key = (ts.map TokenRecord.key).eraseDups
  last : ∀ t ∈ r.entries, ∃ before after, ts = before ++ t :: after ∧
    ∀ u ∈ after, u.key ≠ t.key

theorem TokenRecord.IsLastAdded.of_adds {ts : List TokenRecord} {t : TokenRecord}
    (h : t.IsLastAdded (ts.map .add)) :
    ∃ before after, ts = before ++ t :: after ∧ ∀ u ∈ after, u.key ≠ t.key := by
  obtain ⟨before, added, since, hsteps, hbecomes⟩ := h
  obtain ⟨before, rest, rfl, rfl, hrest⟩ := List.map_eq_append_iff.mp hsteps
  obtain ⟨added', after, rfl, hadded, rfl⟩ := List.map_eq_cons_iff.mp hrest
  obtain rfl := RegistryStep.add.inj hadded
  -- further additions pass a token on unchanged
  have hsame : t = added' := by
    have hpass : ∀ us : List TokenRecord,
        us.foldl (fun t u => RegistryStep.pass (.add u) t) added' = added' := by
      intro us
      induction us with
      | nil => rfl
      | cons u us ih => exact ih
    rw [hbecomes.eq_foldl, List.foldl_map, hpass]
  subst hsame
  refine ⟨before, after, rfl, fun u hu hkey => ?_⟩
  exact hbecomes.last (.add u) (List.mem_map_of_mem hu) (congrArg some hkey)

theorem Registry.filledWith_foldl_add (ts : List TokenRecord) :
    (ts.foldl add .empty).FilledWith ts := by
  have hafter : after (ts.map .add) = ts.foldl add .empty := by
    rw [after, List.foldl_map]
    rfl
  rw [← hafter]
  refine ⟨?_, fun t ht => (isLastAdded_of_mem_after ht).of_adds⟩
  rw [keys_after, List.filterMap_map]
  exact congrArg List.eraseDups (congrFun List.filterMap_eq_map ts)

/-- A registry that is filled with one token has its collection and no other. -/
theorem Registry.FilledWith.collections_eq {r : Registry} {ts : List TokenRecord}
    (h : r.FilledWith ts) {collection : String} (hts : ts.map (·.collection) = [collection]) :
    r.entries.map (·.collection) = [collection] := by
  obtain ⟨t, rfl, hcollection⟩ := List.map_eq_singleton_iff.mp hts
  have hlength : r.entries.length = 1 := by
    have hkeys := congrArg List.length h.order
    rwa [List.length_map] at hkeys
  obtain ⟨u, hentries⟩ := List.length_eq_one_iff.mp hlength
  obtain ⟨before, after, heq, -⟩ := h.last u (by simp [hentries])
  have hmem : u ∈ [t] := by simp [heq]
  rw [hentries, List.mem_singleton.mp hmem, List.map_singleton, hcollection]

/-! ### Positions

Positions are never searched for once they are noted, and only adding a token changes them. So it is
enough that each step agrees with the library and leaves behind the positions of the keys
(`apply_ofRegistry`); all that is said of the registry with positions follows from what is known of
the one without. -/

namespace Positional.IndexedRegistry

/-- Tokens with type and owner as the store answers, each changed where it stands. -/
def resolve (x : IndexedRegistry) (answers : List StoredToken) : IndexedRegistry :=
  answers.foldl (fun x s => { x with entries := x.entries.map (·.resolvedBy s) }) x

/-- Tokens with metadata from the accounts that hold them, each changed where it stands. -/
def describe (x : IndexedRegistry) (accounts : List AlteredAccount) : IndexedRegistry :=
  { x with entries := x.entries.map (·.describedBy (accounts.flatMap (·.tokens))) }

/-- A registry after something has been done to it. -/
def apply (x : IndexedRegistry) : RegistryStep → Except Misread IndexedRegistry
  | .add t => x.add t
  | .resolve answers => .ok (x.resolve answers)
  | .describe accounts => .ok (x.describe accounts)

/-- No token, and so no position. -/
def empty : IndexedRegistry :=
  ⟨[], fun _ => none⟩

/-- A registry after a number of steps, empty before them. -/
def run (steps : List RegistryStep) : Except Misread IndexedRegistry :=
  steps.foldlM apply empty

/-- What a registry is after a number of steps. -/
structure IsLedTo (steps : List RegistryStep) (x : IndexedRegistry) : Prop where
  /-- It has the tokens that the library has. -/
  entries : x.entries = (Registry.after steps).entries
  /-- Positions are kept for the keys of the tokens and for no others, and lead to the tokens. -/
  position : ∀ key i, x.position? key = some i ↔ ∃ t, x.entries[i]? = some t ∧ t.key = key
  distinct : (x.entries.map TokenRecord.key).Nodup
  /-- The keys stand in the order in which they were first added. -/
  order : x.entries.map TokenRecord.key =
    (steps.filterMap RegistryStep.addedKey?).eraseDups
  lastAdded : ∀ t ∈ x.entries, t.IsLastAdded steps

/-- A change that leaves the keys alone leaves the positions alone. -/
theorem ofRegistry_update (r : Registry) (f : TokenRecord → TokenRecord)
    (h : ∀ t, (f t).key = t.key) :
    ofRegistry (r.update f h) = { ofRegistry r with entries := r.entries.map f } := by
  have hkeys : (r.entries.map f).map TokenRecord.key = r.entries.map TokenRecord.key := by
    rw [List.map_map]
    exact List.map_congr_left fun t _ => h t
  rw [ofRegistry, Registry.update, hkeys]
  rfl

theorem resolve_ofRegistry (r : Registry) (answers : List StoredToken) :
    (ofRegistry r).resolve answers = ofRegistry (r.resolve answers) := by
  unfold resolve Registry.resolve
  induction answers generalizing r with
  | nil => rfl
  | cons s rest ih =>
      rw [List.foldl_cons, List.foldl_cons, ← ih, ofRegistry_update]
      rfl

/-- A step goes right, and the positions stay those of the keys. -/
theorem apply_ofRegistry (r : Registry) (step : RegistryStep) :
    (ofRegistry r).apply step = .ok (ofRegistry (r.apply step)) := by
  cases step with
  | add t => exact add_ofRegistry r t
  | resolve answers => exact congrArg Except.ok (resolve_ofRegistry r answers)
  | describe accounts =>
      exact congrArg Except.ok (ofRegistry_update r _ (TokenRecord.key_describedBy _)).symm

theorem foldlM_apply (steps : List RegistryStep) (r : Registry) :
    steps.foldlM apply (ofRegistry r) = .ok (ofRegistry (steps.foldl Registry.apply r)) := by
  induction steps generalizing r with
  | nil => rfl
  | cons step steps ih =>
      rw [List.foldlM_cons, apply_ofRegistry, ok_bind, ih, List.foldl_cons]

/-- Of distinct keys each has one position. -/
theorem idxOf?_eq_some_iff_of_nodup {α : Type} [DecidableEq α] {keys : List α} (h : keys.Nodup)
    {key : α} {i : Nat} : keys.idxOf? key = some i ↔ keys[i]? = some key := by
  rw [List.idxOf?_eq_some_iff, List.getElem?_eq_some_iff]
  constructor
  · intro ⟨hi, hkey, _⟩
    exact ⟨hi, hkey⟩
  · intro ⟨hi, hkey⟩
    refine ⟨hi, hkey, fun j hj hsame => ?_⟩
    have heq : j = i := h.getElem_inj_iff.mp (hsame.trans hkey.symm)
    omega

/-- The position of a key is where its token stands. -/
theorem position?_ofRegistry_eq_some_iff {r : Registry} {key : String} {i : Nat} :
    (ofRegistry r).position? key = some i ↔ ∃ t, r.entries[i]? = some t ∧ t.key = key := by
  rw [← Option.map_eq_some_iff, ← List.getElem?_map, ← idxOf?_eq_some_iff_of_nodup r.distinct]
  rfl

/-- Whatever is done to a registry, it goes right. -/
theorem run_isLedTo (steps : List RegistryStep) : ∃ x, run steps = .ok x ∧ IsLedTo steps x := by
  refine ⟨ofRegistry (Registry.after steps), foldlM_apply steps Registry.empty, ?_⟩
  constructor
  · rfl
  · exact fun _ _ => position?_ofRegistry_eq_some_iff
  · exact (Registry.after steps).distinct
  · exact Registry.keys_after steps
  · exact fun _ => Registry.isLastAdded_of_mem_after

example : (Registry.after [.add { collection := "A" }, .add { collection := "B" },
    .resolve [{ found := true, id := "A", type := "MetaESDT" }],
    .add { collection := "A", nonce := 1 }]).entries =
    [{ collection := "A", nonce := 1 }, { collection := "B" }] := by decide

end Positional.IndexedRegistry

end ChainIndex
