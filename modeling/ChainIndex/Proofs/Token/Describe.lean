import ChainIndex.Proofs.Dict
import ChainIndex.Token.Registry
import Mathlib.Data.List.Forall2

/-!
# Metadata from the accounts of a block

An item that a block creates without telling its metadata gets that of the first account that has
the item, and of this account the first such token counts. If that one is silent, the item has no
metadata, whatever the others tell (`Registry.describe_describedFrom`). The accounts are asked in
the order in which the block lists them, so the metadata is the same in every order only if all
accounts that have the item tell the same (`Registry.describe_eq_iff_agreedOn`).

There are two ways to look at the search. To find the metadata of an item in one block, the tokens
of all accounts are one list, and the first that matches counts (`TokenRecord.IsFirstHeldAs`). To
change the order of the accounts, each of them is one voice, which tells metadata, tells that there
is none, or does not have the item (`AlteredAccount.metadataOf?`). An account with two entries for
an item has one voice, that of the first entry, in whatever order the accounts come.
-/

namespace ChainIndex

/-- What an account tells of the metadata of an item, if it has the item. -/
def AlteredAccount.metadataOf? (t : TokenRecord) (a : AlteredAccount) :
    Option (Option TokenMetadata) :=
  (a.tokens.find? fun h => h.identifier == t.collection && h.nonce == t.nonce).map fun h =>
    h.metadata.map TokenMetadata.ofRaw

namespace TokenRecord

/-- A token without its metadata. -/
def undescribed (t : TokenRecord) : TokenRecord :=
  { t with metadata := none }

/-- A token takes its metadata from the accounts: it is an item, and none is told. -/
def AsksForMetadata (t : TokenRecord) : Prop :=
  t.metadata = none ∧ t.nonce ≠ 0

/-- The accounts that have a token tell the same of its metadata. -/
def AgreedOn (t : TokenRecord) (accounts : List AlteredAccount) : Prop :=
  ∀ a ∈ accounts, ∀ a' ∈ accounts, ∀ m m',
    a.metadataOf? t = some m → a'.metadataOf? t = some m' → m = m'

variable {t : TokenRecord} {accounts accounts' : List AlteredAccount}

theorem describedBy_of_not_asks (h : ¬ t.AsksForMetadata) (holdings : List Holding) :
    t.describedBy holdings = t := by
  rw [describedBy, if_pos]
  rw [AsksForMetadata, not_and_or, not_not] at h
  rcases h with h | h
  · rw [Bool.or_eq_true]
    exact .inl (Option.isSome_iff_ne_none.mpr h)
  · simp [h]

/-- The first account that has an item tells its metadata. -/
theorem describedBy_of_asks (h : t.AsksForMetadata) (accounts : List AlteredAccount) :
    t.describedBy (accounts.flatMap (·.tokens)) =
      { t with metadata := (accounts.findSome? (·.metadataOf? t)).join } := by
  obtain ⟨hnone, hnonce⟩ := h
  have hfind : accounts.findSome? (·.metadataOf? t) =
      ((accounts.flatMap (·.tokens)).find? fun h =>
        h.identifier == t.collection && h.nonce == t.nonce).map fun h =>
          h.metadata.map TokenMetadata.ofRaw := by
    rw [List.find?_flatMap, List.map_findSome?]
    rfl
  rw [describedBy, if_neg (by simp [hnone, hnonce]), hfind]
  cases (accounts.flatMap (·.tokens)).find? fun h =>
      h.identifier == t.collection && h.nonce == t.nonce with
  | none =>
      rw [Option.map_none, Option.join_none, ← hnone]
  | some holding => rfl

@[simp] theorem undescribed_describedBy (holdings : List Holding) (t : TokenRecord) :
    (t.describedBy holdings).undescribed = t.undescribed := by
  unfold describedBy
  split
  · rfl
  · split <;> rfl

end TokenRecord

/-! ### The first holding of an item -/

namespace TokenRecord

/-- A holding is one of a token: it has its collection and its nonce. -/
def IsHeldAs (t : TokenRecord) (h : Holding) : Prop :=
  h.identifier = t.collection ∧ h.nonce = t.nonce

/-- A holding is the first one of a token among others. -/
def IsFirstHeldAs (t : TokenRecord) (holdings : List Holding) (h : Holding) : Prop :=
  ∃ before after, holdings = before ++ h :: after ∧ t.IsHeldAs h ∧ ∀ h' ∈ before, ¬ t.IsHeldAs h'

/-- How a token comes out of a search for its metadata among holdings. -/
structure DescribedFrom (holdings : List Holding) (t t' : TokenRecord) : Prop where
  /-- Nothing but the metadata changes. -/
  frame : t'.undescribed = t.undescribed
  /-- What has no metadata, or has it already, stays as it is. -/
  kept : ¬ t.AsksForMetadata → t' = t
  /-- The metadata is that of the first holding. -/
  told : t.AsksForMetadata → ∀ m, t'.metadata = some m ↔
    ∃ h raw, t.IsFirstHeldAs holdings h ∧ h.metadata = some raw ∧ m = .ofRaw raw
  /-- It is found whenever a holding tells it, if and only if all holdings are silent where the
  first one is. -/
  complete : t.AsksForMetadata →
    ((t'.metadata ≠ none ↔ ∃ h ∈ holdings, t.IsHeldAs h ∧ h.metadata ≠ none) ↔
      ∀ h, t.IsFirstHeldAs holdings h → h.metadata = none →
        ∀ h' ∈ holdings, t.IsHeldAs h' → h'.metadata = none)

variable {t : TokenRecord} {holdings : List Holding}

theorem find?_eq_some_iff_isFirstHeldAs {h : Holding} :
    (holdings.find? fun h => h.identifier == t.collection && h.nonce == t.nonce) = some h ↔
      t.IsFirstHeldAs holdings h := by
  rw [List.find?_eq_some_iff_append, IsFirstHeldAs]
  simp only [IsHeldAs, Bool.and_eq_true, beq_iff_eq, Bool.not_eq_eq_eq_not, Bool.not_true,
    Bool.and_eq_false_imp, beq_eq_false_iff_ne, not_and]
  grind

/-- Where a holding is one of a token, some holding is the first one. -/
theorem exists_isFirstHeldAs {h : Holding} (hmem : h ∈ holdings) (hheld : t.IsHeldAs h) :
    ∃ h', t.IsFirstHeldAs holdings h' := by
  simp only [← find?_eq_some_iff_isFirstHeldAs, ← Option.isSome_iff_exists, List.find?_isSome]
  exact ⟨h, hmem, by simp [hheld.1, hheld.2]⟩

theorem IsFirstHeldAs.mem {h : Holding} (hfirst : t.IsFirstHeldAs holdings h) :
    h ∈ holdings ∧ t.IsHeldAs h := by
  obtain ⟨before, after, rfl, hheld, -⟩ := hfirst
  exact ⟨List.mem_append_right _ List.mem_cons_self, hheld⟩

theorem IsFirstHeldAs.unique {h h' : Holding} (hfirst : t.IsFirstHeldAs holdings h)
    (hfirst' : t.IsFirstHeldAs holdings h') : h = h' := by
  rw [← find?_eq_some_iff_isFirstHeldAs] at hfirst hfirst'
  exact Option.some.inj (hfirst.symm.trans hfirst')

theorem metadata_describedBy_iff (hasks : t.AsksForMetadata) (m : TokenMetadata) :
    (t.describedBy holdings).metadata = some m ↔
      ∃ h raw, t.IsFirstHeldAs holdings h ∧ h.metadata = some raw ∧ m = .ofRaw raw := by
  simp only [← find?_eq_some_iff_isFirstHeldAs]
  rw [describedBy, if_neg (by simp [hasks.1, hasks.2])]
  cases holdings.find? fun h => h.identifier == t.collection && h.nonce == t.nonce with
  | none => simp [hasks.1]
  | some h => simp [eq_comm]

theorem metadata_describedBy_ne_none_iff (hasks : t.AsksForMetadata) :
    (t.describedBy holdings).metadata ≠ none ↔
      ∃ h, t.IsFirstHeldAs holdings h ∧ h.metadata ≠ none := by
  simp only [Option.ne_none_iff_exists', metadata_describedBy_iff hasks]
  constructor
  · rintro ⟨-, h, raw, hfirst, htold, -⟩
    exact ⟨h, hfirst, raw, htold⟩
  · rintro ⟨h, hfirst, raw, htold⟩
    exact ⟨_, h, raw, hfirst, htold, rfl⟩

/-- A search gives a token the metadata of its first holding. -/
theorem describedFrom_describedBy (holdings : List Holding) (t : TokenRecord) :
    t.DescribedFrom holdings (t.describedBy holdings) where
  frame := undescribed_describedBy holdings t
  kept h := describedBy_of_not_asks h holdings
  told h := metadata_describedBy_iff h
  complete hasks := by
    rw [metadata_describedBy_ne_none_iff hasks]
    -- what can go wrong is that the first holding is silent and a later one is not
    constructor
    · intro hiff h hfirst hsilent h' hmem hheld
      by_contra htells
      obtain ⟨first, hfirst', htold⟩ := hiff.mpr ⟨h', hmem, hheld, htells⟩
      exact htold (hfirst.unique hfirst' ▸ hsilent)
    · refine fun hsilent => ⟨?_, ?_⟩
      · rintro ⟨h, hfirst, htold⟩
        exact ⟨h, hfirst.mem.1, hfirst.mem.2, htold⟩
      · rintro ⟨h', hmem, hheld, htells⟩
        obtain ⟨h, hfirst⟩ := exists_isFirstHeldAs hmem hheld
        exact ⟨h, hfirst, fun hnone => htells (hsilent h hfirst hnone h' hmem hheld)⟩

end TokenRecord

/-- A registry keeps its keys in their order, and each token comes out of a search for its metadata
among what the accounts hold. -/
theorem Registry.describe_describedFrom (r : Registry) (accounts : List AlteredAccount) :
    (r.describe accounts).entries.map TokenRecord.key = r.entries.map TokenRecord.key ∧
      List.Forall₂ (TokenRecord.DescribedFrom (accounts.flatMap (·.tokens))) r.entries
        (r.describe accounts).entries := by
  set holdings := accounts.flatMap (·.tokens)
  have hentries : (r.describe accounts).entries =
      r.entries.map (TokenRecord.describedBy holdings) := rfl
  rw [hentries, List.map_map]
  refine ⟨List.map_congr_left fun t _ => TokenRecord.key_describedBy holdings t, ?_⟩
  rw [List.forall₂_map_right_iff, List.forall₂_same]
  exact fun t _ => TokenRecord.describedFrom_describedBy holdings t

/-- Of two entries of an account for one item, the second one tells the metadata in vain. -/
theorem Registry.describe_describedFrom_of_silent_holding :
    let item : TokenRecord := { collection := "A", identifier := "A-01", nonce := 1 }
    let silent : Holding := { identifier := "A", nonce := 1 }
    let telling : Holding := { identifier := "A", nonce := 1, metadata := some {} }
    let holder : AlteredAccount := { address := "00", tokens := [silent, telling] }
    item.AsksForMetadata ∧ item.IsHeldAs telling ∧ telling.metadata ≠ none ∧
      ((empty.add item).describe [holder]).entries.map (·.metadata) = [none] := by
  intro item silent telling holder
  have hasks : item.AsksForMetadata := ⟨rfl, by decide⟩
  refine ⟨hasks, ⟨rfl, rfl⟩, nofun, ?_⟩
  obtain ⟨-, hall⟩ := describe_describedFrom (empty.add item) [holder]
  obtain ⟨t, rest, hdescribed, hrest, hentries⟩ := List.forall₂_cons_left_iff.mp hall
  rw [hentries, List.forall₂_nil_left_iff.mp hrest, List.map_singleton]
  have hfirst : item.IsFirstHeldAs [silent, telling] silent :=
    ⟨[], [telling], rfl, ⟨rfl, rfl⟩, fun _ h => absurd h List.not_mem_nil⟩
  refine congrArg ([·]) (Option.eq_none_iff_forall_ne_some.mpr fun m hm => ?_)
  obtain ⟨h, raw, hfirst', htold, -⟩ := (hdescribed.told hasks m).mp hm
  rw [← hfirst.unique hfirst'] at htold
  cases htold

/-! ### Accounts in another order -/

/-- Where all values that a function gives are the same, so is the first one in every order. -/
theorem findSome?_eq_of_perm {α β : Type} {f : α → Option β} {as as' : List α}
    (hperm : as.Perm as')
    (hsame : ∀ a ∈ as, ∀ a' ∈ as, ∀ b b', f a = some b → f a' = some b' → b = b') :
    as'.findSome? f = as.findSome? f := by
  cases hfirst : as.findSome? f with
  | none =>
      rw [List.findSome?_eq_none_iff] at hfirst ⊢
      exact fun a ha => hfirst a (hperm.mem_iff.mpr ha)
  | some b =>
      obtain ⟨a, ha, hb⟩ := List.exists_of_findSome?_eq_some hfirst
      cases hfirst' : as'.findSome? f with
      | none =>
          rw [List.findSome?_eq_none_iff] at hfirst'
          rw [hfirst' a (hperm.mem_iff.mp ha)] at hb
          cases hb
      | some b' =>
          obtain ⟨a', ha', hb'⟩ := List.exists_of_findSome?_eq_some hfirst'
          rw [hsame a ha a' (hperm.mem_iff.mpr ha') b b' hb hb']

theorem TokenRecord.describedBy_of_perm {t : TokenRecord} {accounts accounts' : List AlteredAccount}
    (hperm : accounts.Perm accounts') (h : t.AsksForMetadata → t.AgreedOn accounts) :
    t.describedBy (accounts'.flatMap (·.tokens)) = t.describedBy (accounts.flatMap (·.tokens)) := by
  by_cases hasks : t.AsksForMetadata
  · rw [describedBy_of_asks hasks, describedBy_of_asks hasks, findSome?_eq_of_perm hperm (h hasks)]
  · rw [describedBy_of_not_asks hasks, describedBy_of_not_asks hasks]

/-- Tokens get the same metadata in every order of the accounts if and only if the accounts that
have a token agree. -/
theorem Registry.describe_eq_iff_agreedOn (r : Registry) (accounts : Dict AlteredAccount) :
    (∀ accounts', accounts.SameEntries accounts' →
      r.describe accounts'.values = r.describe accounts.values) ↔
      ∀ t ∈ r.entries, t.AsksForMetadata → t.AgreedOn accounts.values := by
  constructor
  · intro h t ht hasks a ha a' ha' m m' hm hm'
    -- an account that comes first tells the metadata
    have hfirst : ∀ a ∈ accounts.values, ∀ m, a.metadataOf? t = some m →
        t.describedBy (accounts.values.flatMap (·.tokens)) = { t with metadata := m } := by
      intro a ha m hm
      obtain ⟨e, he, rfl⟩ := List.mem_map.mp ha
      obtain ⟨accounts', hsame, rest, hentries⟩ := Dict.exists_sameEntries_cons he
      have hvalues : accounts'.values = e.2 :: rest.map Prod.snd := by
        rw [Dict.values, hentries, List.map_cons]
      have hall := List.map_eq_map_iff.mp (congrArg Registry.entries (h accounts' hsame)) t ht
      rw [← hall, TokenRecord.describedBy_of_asks hasks, hvalues, List.findSome?_cons, hm]
      rfl
    have heq := (hfirst a ha m hm).symm.trans (hfirst a' ha' m' hm')
    exact congrArg TokenRecord.metadata heq
  · intro h accounts' hsame
    have hentries : (r.describe accounts'.values).entries = (r.describe accounts.values).entries :=
      List.map_congr_left fun t ht => TokenRecord.describedBy_of_perm hsame.perm_values (h t ht)
    rwa [Registry.mk.injEq]

end ChainIndex
