import ChainIndex.Proofs.Account
import ChainIndex.Proofs.Indexer
import ChainIndex.Proofs.Search.Index
import ChainIndex.Proofs.Table
import ChainIndex.Proofs.Text.Base64
import ChainIndex.Proofs.Text.Cut
import ChainIndex.Proofs.Text.Utf8
import ChainIndex.Proofs.Token.Attributes
import ChainIndex.Proofs.Token.Tags

/-!
# The documents of tags

An account creates an item with a tag if the attributes that are shown for the item list the tag.
A block counts every tag as often as its accounts create items with it, and writes one document for
each tag that is counted (`Indexer.yields_tagDocuments`).

The count is stated as the number of entries with the tag among all that the accounts list, while
the program adds one after another to a table. Both go through the entries in some order, which does
not matter for a number. An entry counts a tag once, however often its attributes list it.

The identifier of such a document is the tag in base64, and a tag is cut to the longest identifier
before and not after. So it may take a third more than there is room for. How long an identifier
is depends on the length of the tag alone, hence the condition under which all of them fit is one on
lengths (`Indexer.yields_tagIds`).
-/

namespace ChainIndex

/-! ### Items with a tag -/

/-- An account creates an item with a tag. -/
structure Network.CreatesWith (n : Network) (a : AlteredAccount) (tag : String) (t : Holding) :
    Prop where
  address : ∃ key, n.addresses.decode a.address = .ok key
  created : ∃ d, t.details = some d ∧ d.isCreated = true
  named : t.identifier ≠ ""
  listed : ∃ shown raw, a.ShowsAs t shown ∧ (∃ balance, readAmount shown.balance = .ok balance) ∧
    shown.metadata = some raw ∧ ListsTag raw.attributes tag

theorem AlteredAccount.isCreated_entryOf {a : AlteredAccount} {t : Holding} :
    (a.entryOf t).isCreated = true ↔ ∃ d, t.details = some d ∧ d.isCreated = true := by
  unfold entryOf
  cases t.details <;> simp

/-- The metadata of an entry is that of the holding shown, if the balance can be read. -/
theorem HoldingEntry.metadata_state_eq_some_iff {e : HoldingEntry} {m : TokenMetadata} :
    e.state.metadata = some m ↔ e.collection ≠ "" ∧ ∃ shown raw, e.holding? = some shown ∧
      (∃ balance, readAmount shown.balance = .ok balance) ∧ shown.metadata = some raw ∧
      TokenMetadata.ofRaw raw = m := by
  unfold state
  by_cases hname : e.collection = ""
  · simp [hname]
  · rw [if_neg (by simpa using hname)]
    cases e.holding? with
    | none => simp
    | some shown =>
        cases hbalance : readAmount shown.balance with
        | error _ => simp [hbalance]
        | ok balance => simp [hname, hbalance]

theorem AccountReader.mem_createdTags {r : AccountReader} {e : HoldingEntry} {tag : String} :
    tag ∈ r.createdTags e ↔ (∃ key, r.addresses.decode e.account.address = .ok key) ∧
      e.isCreated = true ∧ ∃ m, e.state.metadata = some m ∧ tag ∈ m.tags := by
  unfold createdTags
  cases r.addresses.decode e.account.address with
  | error _ => simp
  | ok key =>
      cases e.isCreated with
      | false => simp
      | true => cases e.state.metadata <;> simp

/-- The tags that count are those of items that the account creates. -/
theorem Network.mem_distinctTags_createdTags {n : Network} {a : AlteredAccount} {tag : String}
    {t : Holding} :
    tag ∈ TagCounts.distinctTags (n.accountReader.createdTags (a.entryOf t)) ↔
      n.CreatesWith a tag t := by
  rw [TagCounts.mem_distinctTags, AccountReader.mem_createdTags, AlteredAccount.isCreated_entryOf]
  simp only [HoldingEntry.metadata_state_eq_some_iff, AlteredAccount.holding?_entryOf]
  constructor
  · rintro ⟨⟨haddress, hcreated, -, ⟨hnamed, shown, raw, hshown, hbalance, hraw, rfl⟩, htag⟩, -⟩
    exact ⟨haddress, hcreated, hnamed, shown, raw, hshown, hbalance, hraw,
      mem_attributeTags.mp htag⟩
  · rintro ⟨haddress, hcreated, hnamed, shown, raw, hshown, hbalance, hraw, htag⟩
    exact ⟨⟨haddress, hcreated, _, ⟨hnamed, shown, raw, hshown, hbalance, hraw, rfl⟩,
      mem_attributeTags.mpr htag⟩, htag.ne_empty⟩

instance (n : Network) (a : AlteredAccount) (tag : String) (t : Holding) :
    Decidable (n.CreatesWith a tag t) :=
  decidable_of_iff _ n.mem_distinctTags_createdTags

/-- The tokens of accounts, each with its account. -/
def holdingsOf (accounts : List AlteredAccount) : List (AlteredAccount × Holding) :=
  accounts.flatMap fun a => a.tokens.map fun t => (a, t)

/-- The number of items that the accounts of a block create with a tag. -/
def Network.createdWith (n : Network) (b : Block) (tag : String) : Nat :=
  (holdingsOf b.accounts.values).countP fun e => n.CreatesWith e.1 tag e.2

theorem Network.createdWith_pos_iff {n : Network} {b : Block} {tag : String} :
    0 < n.createdWith b tag ↔
      ∃ a ∈ b.accounts.values, ∃ t ∈ a.tokens, n.CreatesWith a tag t := by
  simp [createdWith, holdingsOf, List.countP_pos_iff, and_assoc]

/-! ### Counts

A tag that is not counted has no place in the table, so the number zero and the absence of a
document are the same thing. -/

namespace Network

variable (n : Network) (b : Block)

/-- The entries of a block count as the items of its accounts. -/
theorem countP_holdingEntries (tag : String) :
    ((holdingEntries b.accounts).countP fun e =>
      tag ∈ TagCounts.distinctTags (n.accountReader.createdTags e)) = n.createdWith b tag := by
  have hentries : holdingEntries b.accounts =
      (holdingsOf (orderedAccounts b.accounts)).map fun e => e.1.entryOf e.2 := by
    simp only [holdingEntries, holdingsOf, AlteredAccount.holdingEntries_eq_map, List.map_flatMap,
      List.map_map, Function.comp_def]
  have hperm : (holdingsOf (orderedAccounts b.accounts)).Perm (holdingsOf b.accounts.values) :=
    (List.mergeSort_perm b.accounts.values _).flatMap_right _
  rw [hentries, List.countP_map, hperm.countP_eq]
  refine List.countP_congr fun e _ => ?_
  simp only [Function.comp_apply, decide_eq_true_eq]
  exact n.mem_distinctTags_createdTags

/-- A block counts a tag as often as its accounts create items with it. -/
theorem get?_tags_digest (importMode : Bool) (tag : String) :
    (n.digest importMode b).tags.get? tag =
      if 0 < n.createdWith b tag then some (n.createdWith b tag) else none := by
  rw [← countP_holdingEntries]
  exact n.accountReader.get?_tagCounts (holdingEntries b.accounts) tag

theorem mem_keys_tags_digest (importMode : Bool) (tag : String) :
    tag ∈ (n.digest importMode b).tags.keys ↔ 0 < n.createdWith b tag := by
  rw [Table.mem_keys_iff, get?_tags_digest]
  split <;> simp [*]

end Network

/-! ### Documents -/

/-- Whether a document counts a tag. -/
def Document.countsTag (d : Document) : Bool :=
  match d.action with
  | .update (.incrementTag _) _ => true
  | _ => false

/-- No document counts a tag. -/
def CountNoTag (docs : List Document) : Prop :=
  ∀ d ∈ docs, d.countsTag = false

section

variable {α : Type} {index : String}

theorem countNoTag_map {as : List α} {f : α → Document} (h : ∀ a, (f a).countsTag = false) :
    CountNoTag (as.map f) :=
  List.forall_mem_map.mpr fun a _ => h a

theorem CountNoTag.append {docs docs' : List Document} (h : CountNoTag docs)
    (h' : CountNoTag docs') : CountNoTag (docs ++ docs') :=
  List.forall_mem_append.mpr ⟨h, h'⟩

theorem countNoTag_transactionDocuments (self : UInt32) (endings : Table Ending)
    (txs : List Transaction) : CountNoTag (transactionDocuments index self endings txs) := by
  refine CountNoTag.append (countNoTag_map fun t => ?_) (countNoTag_map fun _ => rfl)
  show Document.countsTag ⟨index, t.hash, t.action self⟩ = false
  obtain h | ⟨_, h⟩ := t.action_cases self <;> rw [h] <;> rfl

theorem countNoTag_feeDocuments (fees : Table FeeCorrection) :
    CountNoTag (feeDocuments index fees) := by
  refine countNoTag_map fun e => ?_
  obtain h | h := e.2.script_cases <;> rw [h] <;> rfl

theorem countNoTag_holdingDocuments (holdings : Table AccountRecord) :
    CountNoTag (holdingDocuments index holdings) := by
  refine countNoTag_map fun a => ?_
  obtain ⟨-, h⟩ | ⟨-, h⟩ := a.holdingDocument_cases index <;> rw [h] <;> rfl

theorem countNoTag_delegationDocuments (delegations : Table Delegation) :
    CountNoTag (delegationDocuments index delegations) := by
  refine countNoTag_map fun d => ?_
  obtain ⟨-, h⟩ | ⟨-, h⟩ := d.document_cases index <;> rw [h]
  · rfl
  · obtain ⟨_, -, h⟩ | ⟨_, -, -, h⟩ | ⟨-, -, h⟩ := d.script_cases <;> rw [h] <;> rfl

theorem countNoTag_tokenDocuments (issued : List TokenRecord) (updates : List ItemUpdate) :
    CountNoTag (tokenDocuments index issued updates) := by
  refine CountNoTag.append (countNoTag_map fun t => ?_) (countNoTag_map fun _ => rfl)
  obtain ⟨_, h⟩ | h | h := t.issueDocument_cases index <;> rw [h] <;> rfl

theorem countNoTag_roleDocuments (b : RoleBook) : CountNoTag (roleDocuments index b) := by
  refine CountNoTag.append (List.forall_mem_flatMap.mpr fun e _ => ?_) (countNoTag_map fun _ => rfl)
  refine countNoTag_map fun c => ?_
  obtain h | h := c.document_cases index e.1 <;> rw [h] <;> rfl

end

namespace Digested

variable (d : Digested) (tokens : ResolvedTokens) (names : IndexNames)

/-- Only the section of tags counts tags. -/
theorem countNoTag_sections :
    ∀ s ∈ (d.sections tokens names).take 15 ++ (d.sections tokens names).drop 16,
      CountNoTag s.2 := by
  simp only [sections, List.take_succ_cons, List.take_zero, List.drop_succ_cons, List.drop_zero,
    List.cons_append, List.nil_append, List.forall_mem_cons, List.not_mem_nil,
    IsEmpty.forall_iff, implies_true, and_true]
  exact
    ⟨countNoTag_transactionDocuments _ _ _, countNoTag_transactionDocuments _ _ _,
      countNoTag_map fun _ => rfl, countNoTag_feeDocuments _, countNoTag_feeDocuments _,
      countNoTag_map fun _ => rfl, countNoTag_map fun _ => rfl, countNoTag_map fun _ => rfl,
      countNoTag_map fun _ => rfl, countNoTag_map fun _ => rfl, countNoTag_map fun _ => rfl,
      countNoTag_map fun _ => rfl, countNoTag_holdingDocuments _, countNoTag_map fun _ => rfl,
      countNoTag_map fun _ => rfl, countNoTag_tokenDocuments _ _, countNoTag_tokenDocuments _ _,
      countNoTag_delegationDocuments _, countNoTag_map fun _ => rfl, countNoTag_roleDocuments _,
      countNoTag_roleDocuments _, countNoTag_map fun _ => rfl, countNoTag_map fun _ => rfl⟩

/-- The documents that count tags are those of the tags. -/
theorem filter_documents_countsTag :
    (d.documents tokens names).filter (·.countsTag) = tagDocuments names.tags d.tags := by
  have hsplit : d.sections tokens names =
      (d.sections tokens names).take 15 ++
        (names.tags, tagDocuments names.tags d.tags) :: (d.sections tokens names).drop 16 := rfl
  have hnone : ∀ ss : List (String × List Document), (∀ s ∈ ss, CountNoTag s.2) →
      (ss.flatMap Prod.snd).filter (·.countsTag) = [] := by
    intro ss h
    rw [List.filter_eq_nil_iff, List.forall_mem_flatMap]
    exact fun s hs e he => by simp [h s hs e he]
  obtain ⟨hbefore, hafter⟩ := List.forall_mem_append.mp (d.countNoTag_sections tokens names)
  rw [documents_eq_flatMap, hsplit, List.flatMap_append, List.flatMap_cons, List.filter_append,
    List.filter_append, hnone _ hbefore, hnone _ hafter, List.nil_append, List.append_nil]
  exact List.filter_eq_self.mpr (List.forall_mem_map.mpr fun _ _ => rfl)

end Digested

/-- A block writes one document for each tag with which its accounts create items. It counts these
items, whatever the tag is stored as. -/
theorem Indexer.yields_tagDocuments (x : Indexer) (store : TokenStore) (b : Block) :
    x.Yields store b fun docs => ∃ tags : List String, tags.Pairwise (· < ·) ∧
      (∀ tag, tag ∈ tags ↔ 0 < x.network.createdWith b tag) ∧
      docs.filter (·.countsTag) = tags.map fun tag =>
        .update x.names.tags (tagId tag) (.incrementTag (x.network.createdWith b tag))
          (.object [("count", .nat (x.network.createdWith b tag))]) := by
  refine yields_of_documents fun tokens _ => ?_
  set d := x.network.digest x.importMode b with hd
  refine ⟨d.tags.keys, d.tags.pairwise_keys,
    x.network.mem_keys_tags_digest b x.importMode, ?_⟩
  rw [d.filter_documents_countsTag, tagDocuments, Table.keys, List.map_map]
  refine List.map_congr_left fun e he => ?_
  have hcount : d.tags.get? e.1 = some e.2 := Table.get?_eq_some_iff.mpr he
  rw [hd, Network.get?_tags_digest] at hcount
  split at hcount
  · rw [Function.comp_apply, Option.some.inj hcount]
  · cases hcount

/-! ### Identifiers

Base64 writes three bytes as four signs, and 384 bytes are three quarters of 512. A tag that is cut
keeps 509 bytes or more, as a character has at most four, and that is too much already. -/

/-- A tag is stored under four signs for each three bytes that are left of it. -/
theorem utf8ByteSize_tagId (tag : String) :
    (tagId tag).utf8ByteSize = ((Text.cut Text.maxIdBytes tag).utf8ByteSize + 2) / 3 * 4 := by
  rw [tagId, Base64.utf8ByteSize_encode, Utf8.length_encode]

theorem utf8ByteSize_tagId_le (tag : String) :
    (tagId tag).utf8ByteSize ≤ (Text.maxIdBytes + 2) / 3 * 4 := by
  have hfits := (Text.isFront_cut Text.maxIdBytes tag).fits
  rw [utf8ByteSize_tagId]
  omega

/-- A tag is cut before it is written with more signs, so its identifier fits only if much less of
it is there. -/
theorem utf8ByteSize_tagId_le_maxIdBytes_iff {tag : String} :
    (tagId tag).utf8ByteSize ≤ Text.maxIdBytes ↔ tag.utf8ByteSize ≤ 384 := by
  have hmax : Text.maxIdBytes = 512 := rfl
  rw [utf8ByteSize_tagId]
  rcases Nat.lt_or_ge Text.maxIdBytes tag.utf8ByteSize with hlong | hshort
  · -- what is left of a tag that is cut is too long already
    have hleft := Text.lt_utf8ByteSize_cut hlong
    omega
  · rw [Text.cut_eq_self hshort]
    omega

/-- What is written to the index of tags is written under the identifiers of the tags. -/
theorem Digested.forall_id_tags_iff {d : Digested} {tokens : ResolvedTokens} {names : IndexNames}
    (hnames : names.toList.Nodup) {P : String → Prop} :
    (∀ e ∈ d.documents tokens names, e.index = names.tags → P e.id) ↔
      ∀ tag ∈ d.tags.keys, P (tagId tag) := by
  have hfilter : (∀ e ∈ d.documents tokens names, e.index = names.tags → P e.id) ↔
      ∀ e ∈ (d.documents tokens names).filter (fun e => names.tags == e.index), P e.id := by
    simp only [List.mem_filter, beq_iff_eq, and_imp, @eq_comm _ names.tags]
  rw [hfilter, filter_documents_tags hnames, tagDocuments, Table.keys, List.forall_mem_map,
    List.forall_mem_map]
  rfl

/-- The identifiers of tags take a third more than an identifier may. They all fit if and only if
no tag with which an item is created takes more than three quarters of that. -/
theorem Indexer.yields_tagIds (x : Indexer) (hnames : x.names.toList.Nodup) (store : TokenStore)
    (b : Block) :
    x.Yields store b fun docs =>
      (∀ d ∈ docs, d.index = x.names.tags →
        d.id.utf8ByteSize ≤ (Text.maxIdBytes + 2) / 3 * 4) ∧
      ((∀ d ∈ docs, d.index = x.names.tags → d.id.utf8ByteSize ≤ Text.maxIdBytes) ↔
        ∀ tag, 0 < x.network.createdWith b tag → tag.utf8ByteSize ≤ 384) := by
  refine yields_of_documents fun tokens _ => ⟨?_, ?_⟩
  · rw [Digested.forall_id_tags_iff
      (P := fun id => id.utf8ByteSize ≤ (Text.maxIdBytes + 2) / 3 * 4) hnames]
    exact fun tag _ => utf8ByteSize_tagId_le tag
  · rw [Digested.forall_id_tags_iff (P := fun id => id.utf8ByteSize ≤ Text.maxIdBytes) hnames]
    simp only [Network.mem_keys_tags_digest, utf8ByteSize_tagId_le_maxIdBytes_iff]

/-- An item with a tag of 385 letters. -/
theorem Indexer.yields_tagIds_of_long_tag :
    let letters := List.replicate 385 'a'
    let attributes := Utf8.encode ("tags:" ++ String.ofList letters)
    let item : Holding :=
      { identifier := "A", nonce := 1, balance := "1", metadata := some { attributes }
        details := some { isCreated := true } }
    let b : Block := { accounts := .ofList [("00", { address := "00", tokens := [item] })] }
    ({} : IndexNames).toList.Nodup ∧
      ∃ docs, ((⟨default, false, {}⟩ : Indexer).process .empty b).result = .ok docs ∧
        ¬ ∀ d ∈ docs, d.index = "tags" → d.id.utf8ByteSize ≤ Text.maxIdBytes := by
  intro letters attributes item b
  have hnames : ({} : IndexNames).toList.Nodup := by decide
  have hletters : ∀ P : Char → Prop, P 'a' → ∀ c ∈ letters, P c :=
    fun P h c hc => List.eq_of_mem_replicate hc ▸ h
  have hlists : ListsTag attributes (String.ofList letters) := by
    have hne : letters ≠ [] := List.cons_ne_nil 'a' (List.replicate 384 'a')
    have hlowered := listsTag_encode hne (hletters _ (by decide))
    rwa [Text.lowercase_eq_self (hletters _ (by decide +kernel))] at hlowered
  clear_value attributes
  have haddress : (default : Network).addresses.decode "00" = .ok [0] := by decide
  have hbalance : readAmount "1" = .ok 1 := by decide
  have hcreates : (default : Network).CreatesWith { address := "00", tokens := [item] }
      (String.ofList letters) item := by
    constructor
    case address => exact ⟨[0], haddress⟩
    case created => exact ⟨_, rfl, rfl⟩
    case named => exact (by decide : "A" ≠ "")
    case listed =>
      exact ⟨item, { attributes }, ⟨[], [], rfl, ⟨rfl, rfl⟩, nofun⟩, ⟨1, hbalance⟩, rfl, hlists⟩
  have hcreated : 0 < (default : Network).createdWith b (String.ofList letters) :=
    Network.createdWith_pos_iff.mpr ⟨_, .head _, item, .head _, hcreates⟩
  obtain ⟨docs, hdocs⟩ := exists_process_result ⟨default, false, {}⟩ (fun _ _ => ⟨[], rfl⟩) b
  obtain ⟨-, hiff⟩ := (yields_tagIds _ hnames .empty b).of_result hdocs
  refine ⟨hnames, docs, hdocs, fun hfit => ?_⟩
  have hlength := Text.length_le_utf8ByteSize (String.ofList letters)
  rw [String.toList_ofList, List.length_replicate] at hlength
  exact absurd (hiff.mp hfit _ hcreated) (Nat.not_le_of_lt hlength)

end ChainIndex
