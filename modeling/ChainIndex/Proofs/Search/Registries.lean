import ChainIndex.Proofs.Account
import ChainIndex.Proofs.Search.Order
import ChainIndex.Proofs.Token.History

/-!
# What the registries of a block are filled with

The store is asked about three registries, and each of them is filled from a list that can be read
off the block: what its events create and remove, one event after another, and what its accounts
hold, one entry after another. So the tokens of a registry stand in the order in which the block
names them first, and each is the last one that the block tells of under its name
(`Registry.filledWith_foldl_add`). What accounts tell of the created items afterwards changes no
name, so what the store is asked is settled by these lists alone.
-/

namespace ChainIndex

/-! ### The lists

A record is made for a holding whatever its balance, and only its token is looked at here: the list
leaves out the holdings of which nothing is left, and those whose addresses cannot be read. -/

namespace AccountReader

variable {r : AccountReader}

/-- The token of which an entry holds something, if the address of its account can be read. -/
def heldOf (r : AccountReader) (e : HoldingEntry) : List TokenRecord :=
  match r.addresses.decode e.account.address with
  | .error _ => []
  | .ok _ =>
    if e.state.balance = 0 then []
    else [{ collection := e.collection, identifier := tokenIdentifier e.collection e.nonce }]

theorem mem_heldOf_iff {e : HoldingEntry} {t : TokenRecord} :
    t ∈ r.heldOf e ↔ (∃ key, r.addresses.decode e.account.address = .ok key) ∧
      e.state.balance ≠ 0 ∧
      t = { collection := e.collection, identifier := tokenIdentifier e.collection e.nonce } := by
  unfold heldOf
  cases r.addresses.decode e.account.address with
  | error _ => simp
  | ok key => by_cases hzero : e.state.balance = 0 <;> simp [hzero]

/-- The token of a record of which something is left is that of its entry. -/
theorem heldTokens_eq_foldl (r : AccountReader) (stamp : BlockStamp)
    (entries : List HoldingEntry) :
    r.heldTokens stamp entries = (entries.flatMap r.heldOf).foldl Registry.add .empty := by
  have hrecords : ((entries.filterMap (r.holdingRecord? stamp)).filter
      fun a => isSomeBalance a.balance).map (fun a =>
        ({ collection := a.collection, identifier := a.identifier } : TokenRecord)) =
      entries.flatMap r.heldOf := by
    -- entry by entry: the one without a readable address has no record, and the others have one
    -- with the balance of their entry, which is a text other than zero if the amount is
    induction entries with
    | nil => rfl
    | cons e rest ih =>
        rw [List.flatMap_cons, ← ih, heldOf]
        cases hkey : r.addresses.decode e.account.address with
        | error _ =>
            have hnone : r.holdingRecord? stamp e = none := by rw [holdingRecord?, hkey]
            rw [List.filterMap_cons, hnone, List.nil_append]
        | ok key =>
            obtain ⟨a, hrecord⟩ := r.exists_holdingRecord? stamp hkey
            obtain ⟨⟨-, hcollection, -, hbalance⟩, -⟩ := of_holdingRecord? hrecord
            obtain ⟨hidentifier, -⟩ := token_of_holdingRecord? hrecord
            rw [List.filterMap_cons, hrecord]
            dsimp only
            rw [List.filter_cons, hbalance, ← hidentifier, ← hcollection]
            by_cases hzero : e.state.balance = 0
            · rw [if_neg (fun hsome => isSomeBalance_ofInt_iff.mp hsome hzero), if_pos hzero,
                List.nil_append]
            · rw [if_pos (isSomeBalance_ofInt_iff.mpr hzero), if_neg hzero]
              rfl
  rw [heldTokens, ← hrecords, List.foldl_map]

end AccountReader

namespace Network

variable (n : Network) (b : Block)

/-- The items that the events of a block create. -/
def creations : List TokenRecord :=
  (loggedEvents b.logs).flatMap fun e => n.creationsOf b.stamp e.event

/-- The items that the events of a block remove. -/
def removals : List TokenRecord :=
  (loggedEvents b.logs).flatMap fun e => n.removalsOf b.stamp e.event

/-- The tokens of which the accounts of a block hold something. -/
def held : List TokenRecord :=
  (holdingEntries b.accounts).flatMap n.accountReader.heldOf

end Network

/-! ### The registries -/

namespace Network

variable {n : Network} {b : Block}

/-- What accounts tell of the created items is left out of the list. -/
theorem created_digest_eq (n : Network) (importMode : Bool) (b : Block) :
    (n.digest importMode b).findings.created =
      ((n.creations b).foldl Registry.add .empty).describe b.accounts.values :=
  n.created_digest importMode b

theorem removed_digest_eq (n : Network) (importMode : Bool) (b : Block) :
    (n.digest importMode b).findings.removed = (n.removals b).foldl Registry.add .empty :=
  removed_readLogs n b.stamp b.logs _ _

theorem heldTokens_digest_eq (n : Network) (importMode : Bool) (b : Block) :
    (n.digest importMode b).heldTokens = (n.held b).foldl Registry.add .empty :=
  n.accountReader.heldTokens_eq_foldl b.stamp (holdingEntries b.accounts)

theorem mem_creationsOf_iff {stamp : BlockStamp} {e : Event} {t : TokenRecord} :
    t ∈ n.creationsOf stamp e ↔ n.createdItemOf? stamp e = some t ∧ n.IsOfItem stamp e ∧
      n.sharding.shardOf e.address = stamp.shard ∧ e.identifier = createIdentifier := by
  unfold creationsOf
  split
  · next hcreates => rw [Option.mem_toList, and_iff_left hcreates]
  · next hother => exact iff_of_false List.not_mem_nil fun h => hother h.2

/-- An item that is created is as its event tells it, with metadata perhaps. -/
theorem of_createdItemOf? {stamp : BlockStamp} {e : Event} {t : TokenRecord}
    (h : n.createdItemOf? stamp e = some t) :
    ∃ metadata, t = { itemOf stamp e with metadata } := by
  unfold createdItemOf? at h
  split at h
  · cases h
  · obtain ⟨_, -, rfl⟩ := Option.map_eq_some_iff.mp h
    exact ⟨_, rfl⟩

theorem mem_removalsOf_iff {stamp : BlockStamp} {e : Event} {t : TokenRecord} :
    t ∈ n.removalsOf stamp e ↔ t = itemOf stamp e ∧ n.IsOfItem stamp e ∧
      (n.sharding.shardOf e.address = stamp.shard ∧ e.identifier ≠ createIdentifier ∨
        e.identifier = wipeIdentifier ∧ 4 ≤ e.topics.length ∧
          n.sharding.shardOf (e.topic 3) = stamp.shard) := by
  unfold removalsOf
  rw [List.mem_append]
  split <;> split <;> simp_all

end Network

end ChainIndex
