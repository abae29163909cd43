import ChainIndex.Account.Build
import ChainIndex.Proofs.Chain.Address
import ChainIndex.Proofs.Table
import ChainIndex.Search.Accounts

/-!
# Every account and every holding has a record of its own

An account is known by its address, and a holding by its address, its collection and its nonce,
which are joined by dashes: in the key by which holdings are collected, in the identifier of a
document, and in that of the history. A collection may have dashes in its name, but the address in
front of it has the length of all addresses, and the nonce behind it has no dash. So two holdings
never have one key or one identifier (`AccountReader.nodup_holdingId`), and the block has one record
for each account and for each holding that it tells of (`AccountReader.mem_keys_accountTable`,
`AccountReader.mem_holdingNames_iff`), with one snapshot for each record.

That the address has a known length needs a reason. It comes with the text of an altered account,
which may be anything; but no record is made unless the text can be decoded, and a text that can be
decoded is as long as the format says (`AddressFormat.length_of_decode`). So every record carries
the proof that its address could be read, and with it the length by which a key is cut.

Accounts and holdings differ in one place. The key of a snapshot ends in the collection and the
nonce, which an account leaves empty, while the identifier of an account has neither. So what is
said of the identifiers of snapshots is said for any records that are stored under different ones
(`nodup_id_snapshot`), and then used for both.
-/

namespace ChainIndex

/-! ### What a holding is known by -/

theorem Digits.ofNat_injective {m n : Nat} (h : Digits.ofNat m = Digits.ofNat n) : m = n := by
  have hdigits : Nat.toDigits 10 m = Nat.toDigits 10 n := String.ofList_inj.mp h
  rw [← Nat.ofDigitChars_ten_toDigits (n := m), hdigits, Nat.ofDigitChars_ten_toDigits]

theorem Digits.dash_not_mem_ofNat (n : Nat) : '-' ∉ (Digits.ofNat n).toList := by
  rw [Digits.ofNat, String.toList_ofList]
  intro hdash
  exact absurd (Nat.isDigit_of_mem_toDigits (by decide) (by decide) hdash) (by decide)

/-- A balance says that nothing is there in two ways. -/
theorem isSomeBalance_iff {balance : String} :
    isSomeBalance balance = true ↔ balance ∉ ["", "0"] := by
  simp [isSomeBalance]

/-- The text of an amount says that something is there unless the amount is zero. -/
theorem isSomeBalance_ofInt_iff {amount : Int} :
    isSomeBalance (Digits.ofInt amount) = true ↔ amount ≠ 0 := by
  rw [isSomeBalance_iff]
  unfold Digits.ofInt
  split
  · next hneg =>
      -- a sign stands in front of the digits
      have hsign : ∀ digits : String, "-" ++ digits ∉ ["", "0"] := by
        intro digits hmem
        have hhead : ("-" ++ digits).toList.head? = some '-' := by
          rw [String.toList_append]
          rfl
        rcases List.mem_pair.mp hmem with heq | heq
        · rw [heq] at hhead
          exact absurd hhead (by decide)
        · rw [heq] at hhead
          exact absurd hhead (by decide)
      exact iff_of_true (hsign _) (Int.ne_of_lt hneg)
  · have hempty : Digits.ofNat amount.natAbs ≠ "" := by
      intro heq
      have hdigits : Nat.toDigits 10 amount.natAbs = [] := String.ofList_inj.mp heq
      exact absurd hdigits Nat.toDigits_ne_nil
    have hzero : Digits.ofNat amount.natAbs = "0" ↔ amount = 0 := by
      have htext : "0" = Digits.ofNat 0 := by decide
      rw [htext, ← Int.natAbs_eq_zero]
      exact ⟨Digits.ofNat_injective, congrArg Digits.ofNat⟩
    rw [List.mem_pair, or_iff_right hempty, hzero]

/-! The key is opened as a list of characters, since only there can it be taken apart: at a place
that is known, the length of the address, and then at the last dash. -/

theorem toList_holdingKey (address collection : String) (nonce : UInt64) :
    (holdingKey address collection nonce).toList =
      address.toList ++
        '-' :: (collection.toList ++ '-' :: (Digits.ofNat nonce.toNat).toList) := by
  have hdash : "-".toList = ['-'] := by decide
  simp [holdingKey, String.toList_append, hdash]

/-- The key tells the holding, among those whose addresses have one length. -/
theorem eq_of_holdingKey_eq {address address' collection collection' : String}
    {nonce nonce' : UInt64} (hlen : address.toList.length = address'.toList.length)
    (h : holdingKey address collection nonce = holdingKey address' collection' nonce') :
    address = address' ∧ collection = collection' ∧ nonce = nonce' := by
  have h := congrArg String.toList h
  rw [toList_holdingKey, toList_holdingKey] at h
  obtain ⟨haddress, hrest⟩ := List.append_inj h hlen
  obtain ⟨hcollection, hnonce⟩ := eq_of_append_dash (Digits.dash_not_mem_ofNat _)
    (Digits.dash_not_mem_ofNat _) (List.cons.inj hrest).2
  exact ⟨String.toList_inj.mp haddress, String.toList_inj.mp hcollection,
    UInt64.toNat_inj.mp (Digits.ofNat_injective (String.toList_inj.mp hnonce))⟩

/-- What a holding is known by: who holds it, the collection and the nonce. -/
structure HoldingName where
  address : String
  collection : String
  nonce : UInt64
deriving DecidableEq

/-- What a holding is stored under. -/
def HoldingName.id (h : HoldingName) : String :=
  h.address ++ "-" ++ h.collection ++ "-" ++ nonceText h.nonce

/-- What the holding of a record is known by. -/
def AccountRecord.holdingName (a : AccountRecord) : HoldingName :=
  ⟨a.address, a.collection, a.tokenNonce⟩

/-- What the holding of an entry is known by. -/
def HoldingEntry.name (e : HoldingEntry) : HoldingName :=
  ⟨e.account.address, e.collection, e.nonce⟩

/-- An item that is held is stored under its holder and its identifier. -/
theorem HoldingName.id_eq_of_item {h : HoldingName} (hnonce : h.nonce ≠ 0) :
    h.id = h.address ++ "-" ++ tokenIdentifier h.collection h.nonce := by
  rw [id, nonceText, tokenIdentifier, if_neg hnonce, if_neg hnonce]
  simp only [String.append_assoc]

/-! ### What an account has of a token

An account may list one token several times. The last of these entries is the one that is shown
(`AlteredAccount.ShowsAs`), whichever of them a record is made for, so the records of all of them
agree in the balance. -/

/-- What an account has of a token is shown as one of its holdings: the last one of that name. -/
def AlteredAccount.ShowsAs (a : AlteredAccount) (t shown : Holding) : Prop :=
  ∃ before after, a.tokens = before ++ shown :: after ∧
    (shown.identifier = t.identifier ∧ shown.nonce = t.nonce) ∧
    ∀ later ∈ after, ¬ (later.identifier = t.identifier ∧ later.nonce = t.nonce)

/-- The entry for a token of an account. -/
def AlteredAccount.entryOf (a : AlteredAccount) (t : Holding) : HoldingEntry where
  account := a
  collection := t.identifier
  nonce := t.nonce
  isSender := a.isSender
  isCreated := match t.details with
    | some d => d.isCreated
    | none => false

theorem AlteredAccount.holdingEntries_eq_map (a : AlteredAccount) :
    a.holdingEntries = a.tokens.map a.entryOf :=
  rfl

theorem AlteredAccount.holding?_entryOf {a : AlteredAccount} {t shown : Holding} :
    (a.entryOf t).holding? = some shown ↔ a.ShowsAs t shown := by
  have hname : ∀ h : Holding, (h.identifier == t.identifier && h.nonce == t.nonce) = true ↔
      h.identifier = t.identifier ∧ h.nonce = t.nonce := by simp
  show (a.tokens.filter fun h => h.identifier == t.identifier && h.nonce == t.nonce).getLast? =
    some shown ↔ _
  simp only [List.getLast?_eq_some_iff, List.filter_eq_append_iff, List.filter_eq_cons_iff,
    List.filter_eq_nil_iff, hname, ShowsAs]
  constructor
  · rintro ⟨-, front, back, heq, -, middle, after, rfl, -, hshown, hafter⟩
    exact ⟨front ++ middle, after, by rw [heq, List.append_assoc], hshown, hafter⟩
  · rintro ⟨before, after, heq, hshown, hafter⟩
    exact ⟨_, before, shown :: after, heq, rfl, [], after, rfl, nofun, hshown, hafter⟩

/-- Whatever an account lists, it shows something for it. -/
theorem AlteredAccount.exists_showsAs {a : AlteredAccount} {t : Holding} (ht : t ∈ a.tokens) :
    ∃ shown, a.ShowsAs t shown := by
  have hlisted : t ∈ a.tokens.filter fun h => h.identifier == t.identifier && h.nonce == t.nonce :=
    List.mem_filter.mpr ⟨ht, by simp⟩
  obtain ⟨shown, hshown⟩ := List.getLast?_isSome.mpr (List.ne_nil_of_mem hlisted) |>
    Option.isSome_iff_exists.mp
  exact ⟨shown, AlteredAccount.holding?_entryOf.mp hshown⟩

/-- What is shown of a token is shown as itself. -/
theorem AlteredAccount.ShowsAs.self {a : AlteredAccount} {t shown : Holding}
    (h : a.ShowsAs t shown) : a.ShowsAs shown shown := by
  obtain ⟨before, after, htokens, ⟨hidentifier, hnonce⟩, hlast⟩ := h
  rw [← hidentifier, ← hnonce] at hlast
  exact ⟨before, after, htokens, ⟨rfl, rfl⟩, hlast⟩

/-- An account shows one thing under a name. -/
theorem AlteredAccount.ShowsAs.eq {a : AlteredAccount} {t t' shown shown' : Holding}
    (h : a.ShowsAs t shown) (h' : a.ShowsAs t' shown') (hidentifier : t'.identifier = t.identifier)
    (hnonce : t'.nonce = t.nonce) : shown' = shown := by
  have hshown := AlteredAccount.holding?_entryOf.mpr h
  have hshown' := AlteredAccount.holding?_entryOf.mpr h'
  simp only [HoldingEntry.holding?, AlteredAccount.entryOf, hidentifier, hnonce] at hshown hshown'
  exact Option.some.inj (hshown'.symm.trans hshown)

/-- The amount that is shown of a token: none if it cannot be read, and none of a token whose
collection has no name. -/
def Holding.amount (t : Holding) : Int :=
  if t.identifier = "" then 0
  else
    match readAmount t.balance with
    | .error _ => 0
    | .ok balance => balance

/-- The balance of an entry is the amount that the account shows for its token. -/
theorem AlteredAccount.ShowsAs.balance_state {a : AlteredAccount} {t shown : Holding}
    (h : a.ShowsAs t shown) : (a.entryOf t).state.balance = shown.amount := by
  have hshown := AlteredAccount.holding?_entryOf.mpr h
  obtain ⟨-, -, -, ⟨hidentifier, -⟩, -⟩ := h
  have hcollection : (a.entryOf t).collection = shown.identifier := hidentifier.symm
  rw [HoldingEntry.state, hcollection, hshown, Holding.amount]
  by_cases hname : shown.identifier = ""
  · rw [if_pos hname, if_pos (String.isEmpty_iff.mpr hname)]
  · rw [if_neg hname, if_neg (fun hempty => hname (String.isEmpty_iff.mp hempty))]
    dsimp only
    cases readAmount shown.balance with
    | error _ => rfl
    | ok balance => rfl

namespace AccountRecord

theorem toList_holdingId (a : AccountRecord) :
    a.holdingId.toList =
      a.address.toList ++
        '-' :: (a.collection.toList ++ '-' :: (nonceText a.tokenNonce).toList) := by
  have hdash : "-".toList = ['-'] := by decide
  simp [holdingId, String.toList_append, hdash]

/-- The identifier tells the holding, among those whose addresses have one length. -/
theorem eq_of_holdingId_eq {a b : AccountRecord}
    (hlen : a.address.toList.length = b.address.toList.length) (h : a.holdingId = b.holdingId) :
    a.address = b.address ∧ a.collection = b.collection ∧ a.tokenNonce = b.tokenNonce := by
  have h := congrArg String.toList h
  rw [toList_holdingId, toList_holdingId] at h
  obtain ⟨haddress, hrest⟩ := List.append_inj h hlen
  obtain ⟨hcollection, hnonce⟩ := eq_of_append_dash (dash_not_mem_nonceText _)
    (dash_not_mem_nonceText _) (List.cons.inj hrest).2
  exact ⟨String.toList_inj.mp haddress, String.toList_inj.mp hcollection,
    nonceText_injective (String.toList_inj.mp hnonce)⟩

/-- An item that is held is stored under its holder and its identifier. -/
theorem holdingId_eq_of_item {a : AccountRecord} (h : a.tokenNonce ≠ 0) :
    a.holdingId = a.address ++ "-" ++ tokenIdentifier a.collection a.tokenNonce :=
  HoldingName.id_eq_of_item (h := a.holdingName) h

/-- A type and an owner are all that a registry adds to a holding. -/
theorem typedBy_frame (r : Registry) (a : AccountRecord) :
    ∃ type currentOwner, a.typedBy r = { a with type, currentOwner } := by
  unfold typedBy
  split
  · exact ⟨_, _, rfl⟩
  · exact ⟨_, _, rfl⟩

@[simp] theorem holdingName_typedBy (r : Registry) (a : AccountRecord) :
    (a.typedBy r).holdingName = a.holdingName := by
  obtain ⟨_, _, heq⟩ := a.typedBy_frame r
  rw [heq]
  rfl

@[simp] theorem snapshot_typedBy (stamp : BlockStamp) (r : Registry) (a : AccountRecord) :
    (a.typedBy r).snapshot stamp = a.snapshot stamp := by
  obtain ⟨_, _, heq⟩ := a.typedBy_frame r
  rw [heq]
  rfl

@[simp] theorem holdingId_typedBy (r : Registry) (a : AccountRecord) :
    (a.typedBy r).holdingId = a.holdingId := by
  unfold typedBy
  split <;> rfl

@[simp] theorem balance_typedBy (r : Registry) (a : AccountRecord) :
    (a.typedBy r).balance = a.balance := by
  unfold typedBy
  split <;> rfl

end AccountRecord

namespace AccountReader

variable {r : AccountReader} {stamp : BlockStamp} {entries : List HoldingEntry}

/-- A holding has a record if the address of its account can be read. -/
theorem exists_holdingRecord? (r : AccountReader) (stamp : BlockStamp) {e : HoldingEntry}
    {key : Bytes} (h : r.addresses.decode e.account.address = .ok key) :
    ∃ a, r.holdingRecord? stamp e = some a := by
  unfold holdingRecord?
  rw [h]
  exact ⟨_, rfl⟩

/-- A holding is the one that its entry names, with the balance of the account, and its address
can be read. -/
theorem of_holdingRecord? {e : HoldingEntry} {a : AccountRecord}
    (h : r.holdingRecord? stamp e = some a) :
    (a.address = e.account.address ∧ a.collection = e.collection ∧ a.tokenNonce = e.nonce ∧
        a.balance = Digits.ofInt e.state.balance) ∧
      ∃ key, r.addresses.decode a.address = .ok key := by
  unfold holdingRecord? at h
  cases hkey : r.addresses.decode e.account.address with
  | error _ =>
      rw [hkey] at h
      cases h
  | ok key =>
      rw [hkey] at h
      cases h
      exact ⟨⟨rfl, rfl, rfl, rfl⟩, key, hkey⟩

/-- A holding of the table stands under its key, and has an address. -/
theorem get?_holdingTable {k : String} {a : AccountRecord}
    (h : (r.holdingTable stamp entries).get? k = some a) :
    k = holdingKey a.address a.collection a.tokenNonce ∧
      a.address.toList.length = r.addresses.textLength := by
  rw [holdingTable, Table.get?_ofList] at h
  obtain ⟨a', ha, heq⟩ := List.mem_map.mp (mem_of_lastValue? h)
  obtain ⟨rfl, rfl⟩ := Prod.mk.inj heq
  obtain ⟨e, -, he⟩ := List.mem_filterMap.mp ha
  obtain ⟨-, key, hkey⟩ := of_holdingRecord? he
  exact ⟨rfl, AddressFormat.length_of_decode hkey⟩

/-- What the record of a holding says of the token, before a registry is asked. -/
theorem token_of_holdingRecord? {e : HoldingEntry} {a : AccountRecord}
    (h : r.holdingRecord? stamp e = some a) :
    a.identifier = tokenIdentifier e.collection e.nonce ∧ a.type = typeOfNonce e.nonce ∧
      a.currentOwner = "" := by
  unfold holdingRecord? at h
  split at h
  · cases h
  · cases h
    exact ⟨rfl, rfl, rfl⟩

/-- A holding of the table is the record of an entry. -/
theorem exists_entry_of_mem_values {a : AccountRecord}
    (h : a ∈ (r.holdingTable stamp entries).values) :
    ∃ e ∈ entries, r.holdingRecord? stamp e = some a := by
  have hvalue := Table.mem_of_mem_values_ofList h
  rw [List.map_map] at hvalue
  obtain ⟨a', ha, rfl⟩ := List.mem_map.mp hvalue
  exact List.mem_filterMap.mp ha

/-- No two holdings of a block have one identifier. -/
theorem nodup_holdingId (r : AccountReader) (stamp : BlockStamp) (entries : List HoldingEntry) :
    ((r.holdingTable stamp entries).values.map (·.holdingId)).Nodup := by
  have hkeys := (r.holdingTable stamp entries).nodup_keys
  rw [Table.values, List.map_map]
  refine (List.Nodup.of_map Prod.fst hkeys).map_on ?_
  rintro ⟨k, a⟩ ha ⟨k', a'⟩ ha' hid
  obtain ⟨rfl, hlen⟩ := get?_holdingTable (Table.get?_eq_some_iff.mpr ha)
  obtain ⟨rfl, hlen'⟩ := get?_holdingTable (Table.get?_eq_some_iff.mpr ha')
  obtain ⟨haddress, hcollection, hnonce⟩ :=
    AccountRecord.eq_of_holdingId_eq (hlen.trans hlen'.symm) hid
  -- one identifier makes one key, and keys differ
  refine List.inj_on_of_nodup_map hkeys ha ha' ?_
  show holdingKey _ _ _ = holdingKey _ _ _
  rw [haddress, hcollection, hnonce]

/-- A holding is told of by an entry whose address can be read, and by no other one. -/
theorem mem_holdingNames_iff {name : HoldingName} :
    name ∈ (r.holdingTable stamp entries).values.map (·.holdingName) ↔
      (∃ e ∈ entries, e.name = name) ∧ ∃ key, r.addresses.decode name.address = .ok key := by
  constructor
  · intro hname
    obtain ⟨a, ha, rfl⟩ := List.mem_map.mp hname
    obtain ⟨e, he, hrecord⟩ := exists_entry_of_mem_values ha
    obtain ⟨⟨haddress, hcollection, hnonce, -⟩, hkey⟩ := of_holdingRecord? hrecord
    refine ⟨⟨e, he, ?_⟩, hkey⟩
    rw [HoldingEntry.name, AccountRecord.holdingName, haddress, hcollection, hnonce]
  · rintro ⟨⟨e, he, rfl⟩, key, hkey⟩
    obtain ⟨a, hrecord⟩ := r.exists_holdingRecord? stamp hkey
    obtain ⟨⟨haddress, hcollection, hnonce, -⟩, -⟩ := of_holdingRecord? hrecord
    -- the record that stands under the key may be another one, but has the same name
    have hmem : holdingKey a.address a.collection a.tokenNonce ∈
        (r.holdingTable stamp entries).keys := by
      rw [holdingTable, Table.mem_keys_ofList, List.map_map]
      exact List.mem_map.mpr ⟨a, List.mem_filterMap.mpr ⟨e, he, hrecord⟩, rfl⟩
    obtain ⟨b, hb⟩ := Table.mem_keys_iff.mp hmem
    obtain ⟨hsame, hlen⟩ := get?_holdingTable hb
    have hlen' : a.address.toList.length = b.address.toList.length := by
      rw [hlen, haddress]
      exact AddressFormat.length_of_decode hkey
    obtain ⟨haddress', hcollection', hnonce'⟩ := eq_of_holdingKey_eq hlen' hsame
    refine List.mem_map.mpr ⟨b, Table.mem_values_iff.mpr ⟨_, hb⟩, ?_⟩
    rw [HoldingEntry.name, AccountRecord.holdingName, ← haddress', ← hcollection', ← hnonce',
      haddress, hcollection, hnonce]

/-- Every holding of the table stands under its key. -/
theorem map_holdingKey_values (r : AccountReader) (stamp : BlockStamp)
    (entries : List HoldingEntry) :
    (r.holdingTable stamp entries).values.map
        (fun a => holdingKey a.address a.collection a.tokenNonce) =
      (r.holdingTable stamp entries).keys :=
  Table.map_values fun _ _ h => (get?_holdingTable h).1.symm

/-- No holding has two records. -/
theorem nodup_holdingName (r : AccountReader) (stamp : BlockStamp)
    (entries : List HoldingEntry) :
    ((r.holdingTable stamp entries).values.map (·.holdingName)).Nodup := by
  have hkeys := (r.holdingTable stamp entries).nodup_keys
  rw [← map_holdingKey_values] at hkeys
  refine List.Nodup.of_map (fun h : HoldingName => holdingKey h.address h.collection h.nonce) ?_
  rw [List.map_map]
  exact hkeys

/-! ### Accounts

The record of an account is that of a holding of no collection, without a nonce; that is its
name. Details are filled in afterwards, and they are frames: whatever else is known of an account
touches neither its name nor its balance. -/

theorem withRewards_frame (r : AccountReader) (rewards : String) (a : AccountRecord) :
    ∃ developerRewards developerRewardsNum,
      r.withRewards rewards a = { a with developerRewards, developerRewardsNum } := by
  unfold withRewards
  split
  · exact ⟨_, _, rfl⟩
  · split
    · exact ⟨_, _, rfl⟩
    · exact ⟨_, _, rfl⟩

/-- What else is known of an account does not change what its record is about. -/
theorem withDetails_frame (r : AccountReader) (details : Option AccountDetails)
    (a : AccountRecord) :
    (r.withDetails details a).holdingName = a.holdingName ∧
      (r.withDetails details a).balance = a.balance := by
  unfold withDetails
  split
  · exact ⟨rfl, rfl⟩
  · next d =>
      obtain ⟨_, _, heq⟩ := r.withRewards_frame d.developerRewards
        { a with
          userName := d.userName
          currentOwner := d.currentOwner
          rootHash := d.rootHash
          codeHash := d.codeHash
          codeMetadata := d.codeMetadata }
      rw [heq]
      exact ⟨rfl, rfl⟩

/-- An account has a record if its address and its balance can be read, and the record is about no
token. -/
theorem accountRecord?_eq_some_iff {e : AccountEntry} :
    (∃ a, r.accountRecord? stamp e = some a) ↔
      (∃ key, r.addresses.decode e.account.address = .ok key) ∧
        ∃ balance, readAmount e.account.balance = .ok balance := by
  unfold accountRecord?
  cases r.addresses.decode e.account.address with
  | error _ => simp
  | ok key => cases readAmount e.account.balance <;> simp

theorem holdingName_of_accountRecord? {e : AccountEntry} {a : AccountRecord}
    (h : r.accountRecord? stamp e = some a) : a.holdingName = ⟨e.account.address, "", 0⟩ := by
  unfold accountRecord? at h
  split at h
  · cases h
    exact (r.withDetails_frame _ _).1
  · cases h

variable {accounts : List AccountEntry}

/-- An account of the table stands under its address, and its record is about no token. -/
theorem get?_accountTable {address : String} {a : AccountRecord}
    (h : (r.accountTable stamp accounts).get? address = some a) :
    a.holdingName = ⟨address, "", 0⟩ := by
  rw [accountTable, Table.get?_ofList] at h
  obtain ⟨a', ha, heq⟩ := List.mem_map.mp (mem_of_lastValue? h)
  obtain ⟨rfl, rfl⟩ := Prod.mk.inj heq
  obtain ⟨e, -, he⟩ := List.mem_filterMap.mp ha
  have hname := holdingName_of_accountRecord? he
  have haddress : a'.address = e.account.address := congrArg HoldingName.address hname
  rw [hname, haddress]

/-- Every account of the table stands under its address. -/
theorem map_address_values (r : AccountReader) (stamp : BlockStamp)
    (accounts : List AccountEntry) :
    (r.accountTable stamp accounts).values.map (·.address) =
      (r.accountTable stamp accounts).keys :=
  Table.map_values fun _ _ h => congrArg HoldingName.address (get?_accountTable h)

/-- An account is told of by an entry whose address and balance can be read, and by no other
one. -/
theorem mem_keys_accountTable {address : String} :
    address ∈ (r.accountTable stamp accounts).keys ↔
      ∃ e ∈ accounts, e.account.address = address ∧
        (∃ key, r.addresses.decode address = .ok key) ∧
        ∃ balance, readAmount e.account.balance = .ok balance := by
  rw [accountTable, Table.mem_keys_ofList, List.map_map, List.mem_map]
  constructor
  · rintro ⟨a, ha, rfl⟩
    obtain ⟨e, he, hrecord⟩ := List.mem_filterMap.mp ha
    obtain ⟨hkey, hbalance⟩ := accountRecord?_eq_some_iff.mp ⟨a, hrecord⟩
    have haddress : a.address = e.account.address :=
      congrArg HoldingName.address (holdingName_of_accountRecord? hrecord)
    refine ⟨e, he, haddress.symm, ?_, hbalance⟩
    show ∃ key, r.addresses.decode a.address = .ok key
    rw [haddress]
    exact hkey
  · rintro ⟨e, he, rfl, hkey, hbalance⟩
    obtain ⟨a, hrecord⟩ := accountRecord?_eq_some_iff.mpr ⟨hkey, hbalance⟩
    exact ⟨a, List.mem_filterMap.mpr ⟨e, he, hrecord⟩,
      congrArg HoldingName.address (holdingName_of_accountRecord? hrecord)⟩

end AccountReader

/-! ### Snapshots

The history has one snapshot for each record, under the identifier of the record with the time
behind it. The time is that of the block, hence the same for all of them, and does not make two
snapshots differ or agree. -/

section Snapshots

variable {stamp : BlockStamp} {records : Table AccountRecord}

/-- Records with distinct keys have one snapshot each. -/
theorem perm_values_snapshotsOf
    (h : (records.values.map fun a => holdingKey a.address a.collection a.tokenNonce).Nodup) :
    (snapshotsOf stamp records).values.Perm (records.values.map (·.snapshot stamp)) := by
  have hkeys : ((records.values.map fun a =>
      (holdingKey a.address a.collection a.tokenNonce, a.snapshot stamp)).map Prod.fst).Nodup := by
    rw [List.map_map]
    exact h
  have hperm := (Table.perm_entries_ofList hkeys).map Prod.snd
  rwa [List.map_map] at hperm

/-- The snapshots of records that stand under their keys stand there too. -/
theorem snapshotsOf_eq_map
    (h : ∀ k a, records.get? k = some a → holdingKey a.address a.collection a.tokenNonce = k) :
    snapshotsOf stamp records = records.map fun _ a => a.snapshot stamp := by
  apply Table.eq_of_get?_eq
  intro k
  have hkeys : ((records.values.map fun a =>
      (holdingKey a.address a.collection a.tokenNonce, a.snapshot stamp)).map Prod.fst).Nodup := by
    rw [List.map_map]
    exact Table.map_values h ▸ records.nodup_keys
  apply Option.ext
  intro s
  rw [snapshotsOf, Table.get?_ofList, lastValue?_eq_some_iff_of_nodup hkeys, Table.get?_map,
    Option.map_eq_some_iff, List.mem_map]
  simp only [Table.mem_values_iff]
  constructor
  · rintro ⟨a, ⟨k', hget⟩, heq⟩
    obtain ⟨hk, rfl⟩ := Prod.mk.inj heq
    rw [h k' a hget] at hk
    exact ⟨a, hk ▸ hget, rfl⟩
  · rintro ⟨a, hget, rfl⟩
    exact ⟨a, ⟨k, hget⟩, by rw [h k a hget]⟩

/-- The identifier of a snapshot is that of the record with the time behind it. -/
theorem id_snapshot (stamp : BlockStamp) (a : AccountRecord) :
    (a.snapshot stamp).id =
      (if a.collection = "" then a.address else a.holdingId) ++
        ("-" ++ Digits.ofNat stamp.timestamp.toNat) := by
  unfold BalanceSnapshot.id AccountRecord.snapshot
  by_cases hnone : a.collection = ""
  · simp [hnone, String.append_assoc]
  · have hsome : a.collection.isEmpty = false := by simpa using hnone
    simp [hnone, hsome, AccountRecord.holdingId, String.append_assoc]

/-- A text that comes behind others does not make them equal. -/
theorem nodup_map_append {α : Type} {f : α → String} {as : List α} (suffix : String)
    (h : (as.map f).Nodup) : (as.map fun a => f a ++ suffix).Nodup := by
  have hinjective : Function.Injective fun text : String => text ++ suffix := by
    intro s t hst
    have hlists := congrArg String.toList hst
    simp only [String.toList_append, List.append_cancel_right_eq] at hlists
    exact String.toList_inj.mp hlists
  have hmap := h.map hinjective
  rwa [List.map_map] at hmap

/-- Records that are stored under different identifiers have different snapshots. -/
theorem nodup_id_snapshot {as : List AccountRecord} {f : AccountRecord → String}
    (hf : ∀ a ∈ as, (if a.collection = "" then a.address else a.holdingId) = f a)
    (h : (as.map f).Nodup) : ((as.map (·.snapshot stamp)).map (·.id)).Nodup := by
  have hids : (as.map (·.snapshot stamp)).map (·.id) =
      as.map fun a => f a ++ ("-" ++ Digits.ofNat stamp.timestamp.toNat) := by
    rw [List.map_map]
    refine List.map_congr_left fun a ha => ?_
    rw [Function.comp_apply, id_snapshot, hf a ha]
  rw [hids]
  exact nodup_map_append _ h

end Snapshots

namespace AccountReader

variable (r : AccountReader) (stamp : BlockStamp) (accounts : List AccountEntry)
  (entries : List HoldingEntry)

theorem nodup_address : ((r.accountTable stamp accounts).values.map (·.address)).Nodup := by
  rw [map_address_values]
  exact Table.nodup_keys _

/-- The record of an account is about no token. -/
theorem collection_nonce_of_mem_accountTable :
    ∀ a ∈ (r.accountTable stamp accounts).values, a.collection = "" ∧ a.tokenNonce = 0 := by
  intro a ha
  obtain ⟨address, hget⟩ := Table.mem_values_iff.mp ha
  have hname := get?_accountTable hget
  exact ⟨congrArg HoldingName.collection hname, congrArg HoldingName.nonce hname⟩

/-- Each account has one snapshot. -/
theorem perm_accountHistory :
    (snapshotsOf stamp (r.accountTable stamp accounts)).values.Perm
      ((r.accountTable stamp accounts).values.map (·.snapshot stamp)) := by
  refine perm_values_snapshotsOf ?_
  -- what follows the address is the same in all keys
  have hkeys : ((r.accountTable stamp accounts).values.map fun a =>
      holdingKey a.address a.collection a.tokenNonce) =
      (r.accountTable stamp accounts).values.map fun a => a.address ++ holdingKey "" "" 0 := by
    refine List.map_congr_left fun a ha => ?_
    obtain ⟨hcollection, hnonce⟩ := r.collection_nonce_of_mem_accountTable stamp accounts a ha
    rw [hcollection, hnonce]
    simp [holdingKey, String.append_assoc]
  rw [hkeys]
  exact nodup_map_append _ (r.nodup_address stamp accounts)

/-- No two accounts have snapshots under one identifier. -/
theorem nodup_id_accountHistory :
    ((snapshotsOf stamp (r.accountTable stamp accounts)).values.map (·.id)).Nodup := by
  rw [((r.perm_accountHistory stamp accounts).map _).nodup_iff]
  refine nodup_id_snapshot (fun a ha => ?_) (r.nodup_address stamp accounts)
  rw [if_pos (r.collection_nonce_of_mem_accountTable stamp accounts a ha).1]

/-- The snapshot of a holding stands where the holding does. -/
theorem holdingHistory_eq_map :
    snapshotsOf stamp (r.holdingTable stamp entries) =
      (r.holdingTable stamp entries).map fun _ a => a.snapshot stamp :=
  snapshotsOf_eq_map fun _ _ h => (get?_holdingTable h).1.symm

/-- Each holding has one snapshot. -/
theorem perm_holdingHistory :
    (snapshotsOf stamp (r.holdingTable stamp entries)).values.Perm
      ((r.holdingTable stamp entries).values.map (·.snapshot stamp)) := by
  rw [holdingHistory_eq_map, Table.values_map]

/-- No two holdings of collections with names have snapshots under one identifier. -/
theorem nodup_id_holdingHistory :
    (((snapshotsOf stamp (r.holdingTable stamp entries)).values.filter
      (·.collection ≠ "")).map (·.id)).Nodup := by
  have hperm := ((r.perm_holdingHistory stamp entries).filter (·.collection ≠ "")).map (·.id)
  rw [hperm.nodup_iff, List.filter_map]
  refine nodup_id_snapshot (fun a ha => ?_)
    ((r.nodup_holdingId stamp entries).sublist (List.filter_sublist.map _))
  have hsome : a.collection ≠ "" := of_decide_eq_true (List.mem_filter.mp ha).2
  rw [if_neg hsome]

end AccountReader

end ChainIndex
