import ChainIndex.Proofs.Events.Roles
import ChainIndex.Proofs.Indexer
import ChainIndex.Proofs.Search.Kinds
import Mathlib.Data.Finset.Erase
import Mathlib.Data.Finset.Insert

/-!
# The documents about roles and properties

Each of the two indices of tokens gets the changes of a role on a token in the order in which the
events of the block report them, though the documents are grouped by role: so whoever replays the
documents ends up with the holders that the events tell. Changes of properties come one for each
event (`Indexer.yields_roles`).

A role book groups changes by role, so the order between changes of two roles is lost. What is kept
is the order of the changes of one role on one token, and nobody needs more, as the changes of two
roles or of two tokens have nothing to do with each other. The documents are therefore compared
after all others have been filtered out. With one name for both indices of tokens each change comes
twice, the whole sequence after itself, and to replay it once more is harmless: who has a role is
decided by the last change alone (`holdersAfter_append_self`).
-/

namespace ChainIndex

/-! ### What documents change -/

/-- What a document changes of a role on a token in an index: whose it becomes or no longer is, and
which of both. -/
def Document.roleChange? (index token role : String) (d : Document) : Option (String × Bool) :=
  match d.action with
  | .update (.setRole changed address granted) _ =>
    if d.index = index ∧ d.id = token ∧ changed = role then some (address, granted) else none
  | _ => none

/-- What a document changes of the properties of a token in an index. -/
def Document.propertyChange? (index : String) (d : Document) : Option PropertyChange :=
  match d.action with
  | .update (.setProperties properties) _ =>
    if d.index = index then some ⟨d.id, properties⟩ else none
  | _ => none

/-- Those who have a role after changes, one after another. -/
def holdersAfter (holders : Finset String) (changes : List (String × Bool)) : Finset String :=
  changes.foldl (fun known c => if c.2 then insert c.1 known else known.erase c.1) holders

/-- What stands in each index of tokens, as it stands in one index: once, unless both indices have
the same name. -/
def IndexNames.ofTokens {α : Type} (names : IndexNames) (index : String) (as : List α) : List α :=
  [names.tokens, names.esdts].flatMap fun name => if name = index then as else []

/-- Documents replay what the events of logs report of roles and properties. -/
structure Network.ReplaysRoles (n : Network) (names : IndexNames) (logs : List LogEntry)
    (docs : List Document) : Prop where
  /-- Of each role on each token, in order. -/
  roles : ∀ index token role, docs.filterMap (·.roleChange? index token role) =
    names.ofTokens index
      ((loggedEvents logs).flatMap fun e => n.roleReports token role e.event)
  holders : ∀ index ∈ [names.tokens, names.esdts], ∀ token role start,
    holdersAfter start (docs.filterMap (·.roleChange? index token role)) =
      holdersAfter start ((loggedEvents logs).flatMap fun e => n.roleReports token role e.event)
  properties : ∀ index, docs.filterMap (·.propertyChange? index) =
    names.ofTokens index ((loggedEvents logs).filterMap fun e => e.event.propertyReport?)

/-! ### Replaying changes -/

/-- Somebody has a role if the last change granted it, or there was none and the role was held. -/
theorem mem_holdersAfter_iff {holders : Finset String} {changes : List (String × Bool)}
    {address : String} :
    address ∈ holdersAfter holders changes ↔
      (lastValue? address changes).getD (decide (address ∈ holders)) = true := by
  induction changes generalizing holders with
  | nil => simp [holdersAfter]
  | cons c rest ih =>
      obtain ⟨changed, granted⟩ := c
      rw [holdersAfter, List.foldl_cons, ← holdersAfter, ih, lastValue?_cons]
      cases hlast : lastValue? address rest with
      | some last => simp
      | none =>
          by_cases hsame : changed = address
          · cases granted <;> simp [hsame]
          · have hother : ¬ address = changed := fun heq => hsame heq.symm
            cases granted <;> simp [hsame, hother]

/-- To replay changes once more changes nothing. -/
theorem holdersAfter_append_self (holders : Finset String) (changes : List (String × Bool)) :
    holdersAfter holders (changes ++ changes) = holdersAfter holders changes := by
  apply Finset.ext
  intro address
  rw [mem_holdersAfter_iff, mem_holdersAfter_iff, lastValue?_append, Option.or_self]

theorem IndexNames.holdersAfter_ofTokens {names : IndexNames} {index : String}
    (hindex : index ∈ [names.tokens, names.esdts]) (holders : Finset String)
    (changes : List (String × Bool)) :
    holdersAfter holders (names.ofTokens index changes) = holdersAfter holders changes := by
  rw [ofTokens, List.flatMap_cons, List.flatMap_singleton]
  by_cases htokens : names.tokens = index
  · by_cases hesdts : names.esdts = index
    · rw [if_pos htokens, if_pos hesdts, holdersAfter_append_self]
    · rw [if_pos htokens, if_neg hesdts, List.append_nil]
  · have hesdts : names.esdts = index := by
      rw [List.mem_cons, List.mem_singleton] at hindex
      exact (hindex.resolve_left fun heq => htokens heq.symm).symm
    rw [if_neg htokens, if_pos hesdts, List.nil_append]

/-! ### The documents of a role book

The documents of one role are one entry of a table, so a filter by role picks out that entry. -/

/-- Entries of a table that are taken at one key are those of its value. -/
theorem flatMap_entries_of_key {α β : Type} (t : Table α) (key : String) (f : α → List β) :
    (t.entries.flatMap fun e => if e.1 = key then f e.2 else []) =
      ((t.get? key).map f).getD [] := by
  have hentries : ∀ es : List (String × α), (es.map Prod.fst).Nodup →
      (es.flatMap fun e => if e.1 = key then f e.2 else []) =
        ((Table.lookup key es).map f).getD [] := by
    intro es hnodup
    induction es with
    | nil => rfl
    | cons e rest ih =>
        obtain ⟨k, v⟩ := e
        rw [List.map_cons, List.nodup_cons] at hnodup
        rw [List.flatMap_cons]
        by_cases hkey : k = key
        · -- the key stands nowhere else
          have hrest : (rest.flatMap fun e => if e.1 = key then f e.2 else []) = [] := by
            rw [List.flatMap_eq_nil_iff]
            intro e he
            refine if_neg fun heq => hnodup.1 ?_
            exact List.mem_map.mpr ⟨e, he, heq.trans hkey.symm⟩
          rw [hrest, List.append_nil]
          simp [Table.lookup, hkey]
        · rw [ih hnodup.2]
          simp [Table.lookup, hkey]
  exact hentries t.entries t.nodup_keys

theorem RoleChange.roleChange?_document (name index token changed role : String)
    (c : RoleChange) :
    (c.document name changed).roleChange? index token role =
      if name = index ∧ c.token = token ∧ changed = role then some (c.address, c.granted)
      else none := by
  obtain h | h := c.document_cases name changed <;> rw [h] <;> rfl

/-- The changes of one role on one token are those of the role book, in its index. -/
theorem filterMap_roleChange?_roleDocuments (name index token role : String) (b : RoleBook) :
    (roleDocuments name b).filterMap (·.roleChange? index token role) =
      if name = index then b.noted token role else [] := by
  have hproperties : (b.properties.map fun p =>
      Document.script name p.token (.setProperties p.properties)).filterMap
        (·.roleChange? index token role) = [] := by
    rw [List.filterMap_map]
    exact List.filterMap_eq_nil_iff.mpr fun p _ => rfl
  have hone : ∀ e : String × List RoleChange,
      (e.2.map (·.document name e.1)).filterMap (·.roleChange? index token role) =
        if e.1 = role then
          if name = index then
            (e.2.filter (·.token == token)).map fun c => (c.address, c.granted)
          else []
        else [] := by
    rintro ⟨changed, changes⟩
    induction changes with
    | nil => simp
    | cons c rest ih =>
        rw [List.map_cons, List.filterMap_cons, RoleChange.roleChange?_document, ih]
        by_cases hchanged : changed = role
        · by_cases hname : name = index
          · by_cases htoken : c.token = token <;> simp [hchanged, hname, htoken]
          · simp [hchanged, hname]
        · simp [hchanged]
  rw [roleDocuments, List.filterMap_append, hproperties, List.append_nil, List.filterMap_flatMap]
  simp only [hone]
  rw [flatMap_entries_of_key b.roles role fun changes =>
      if name = index then (changes.filter (·.token == token)).map fun c => (c.address, c.granted)
      else [], RoleBook.noted]
  by_cases hname : name = index
  · cases b.roles.get? role <;> simp [hname]
  · cases b.roles.get? role <;> simp [hname]

/-- The changes of properties are those of the role book, in its index. -/
theorem filterMap_propertyChange?_roleDocuments (name index : String) (b : RoleBook) :
    (roleDocuments name b).filterMap (·.propertyChange? index) =
      if name = index then b.properties else [] := by
  have hroles : (b.roles.entries.flatMap fun e => e.2.map (·.document name e.1)).filterMap
      (·.propertyChange? index) = [] := by
    refine List.filterMap_eq_nil_iff.mpr fun d hd => ?_
    obtain ⟨e, -, hd⟩ := List.mem_flatMap.mp hd
    obtain ⟨c, -, rfl⟩ := List.mem_map.mp hd
    obtain h | h := c.document_cases name e.1 <;> rw [h] <;> rfl
  rw [roleDocuments, List.filterMap_append, hroles, List.nil_append, List.filterMap_map]
  by_cases hname : name = index
  · rw [if_pos hname]
    exact (List.filterMap_congr fun p _ => if_pos hname).trans List.filterMap_some
  · rw [if_neg hname]
    exact List.filterMap_eq_nil_iff.mpr fun p _ => if_neg hname

/-! ### The documents of a block -/

/-- What is said by documents of roles and properties only stands in each index of tokens as the
role book has it. -/
theorem Digested.filterMap_documents {α : Type} {f : Document → Option α} {index : String}
    {as : List α} (d : Digested) (tokens : ResolvedTokens) (names : IndexNames)
    (hf : ∀ doc : Document, doc.kind ∈ [.other, .ending] → f doc = none)
    (hbook : ∀ name, (roleDocuments name d.findings.roleBook).filterMap f =
      if name = index then as else []) :
    (d.documents tokens names).filterMap f = names.ofTokens index as := by
  have hsilent : ∀ sections : List (String × List Document),
      (∀ s ∈ sections, OfKinds [.other, .ending] s.2) →
        (sections.flatMap Prod.snd).filterMap f = [] := by
    intro sections hsections
    refine List.filterMap_eq_nil_iff.mpr fun doc hdoc => ?_
    obtain ⟨s, hs, hdoc⟩ := List.mem_flatMap.mp hdoc
    exact hf doc (hsections s hs doc hdoc)
  have hothers : ∀ s ∈ ((d.sections tokens names).drop 2).take 18 ++
      (d.sections tokens names).drop 22, OfKinds [.other, .ending] s.2 :=
    fun s hs => OfKinds.mono (d.ofKinds_others tokens names s hs) (List.cons_subset_cons _ nofun)
  have hsplit : d.sections tokens names =
      (d.sections tokens names).take 2 ++ (((d.sections tokens names).drop 2).take 18 ++
        ([(names.tokens, roleDocuments names.tokens d.findings.roleBook),
          (names.esdts, roleDocuments names.esdts d.findings.roleBook)] ++
          (d.sections tokens names).drop 22)) := rfl
  rw [documents_eq_flatMap, hsplit, List.flatMap_append, List.flatMap_append, List.flatMap_append,
    List.filterMap_append, List.filterMap_append, List.filterMap_append,
    hsilent _ (d.ofKinds_endings tokens names),
    hsilent _ fun s hs => hothers s (List.mem_append_left _ hs),
    hsilent _ fun s hs => hothers s (List.mem_append_right _ hs), List.append_nil,
    List.nil_append, List.nil_append, List.flatMap_cons, List.flatMap_singleton,
    List.filterMap_append, hbook, hbook, IndexNames.ofTokens, List.flatMap_cons,
    List.flatMap_singleton]

theorem Document.roleChange?_eq_none {index token role : String} {d : Document}
    (h : d.kind ∈ [.other, .ending]) : d.roleChange? index token role = none := by
  unfold roleChange?
  split
  · next hd => simp [kind, hd, UpdateScript.kind] at h
  · rfl

theorem Document.propertyChange?_eq_none {index : String} {d : Document}
    (h : d.kind ∈ [.other, .ending]) : d.propertyChange? index = none := by
  unfold propertyChange?
  split
  · next hd => simp [kind, hd, UpdateScript.kind] at h
  · rfl

/-- The documents of any block replay what its events report of roles and properties. -/
theorem Indexer.yields_roles (x : Indexer) (store : TokenStore) (b : Block) :
    x.Yields store b (x.network.ReplaysRoles x.names b.logs) := by
  refine yields_of_documents fun tokens _ => ?_
  have hroles : ∀ index token role,
      ((x.network.digest x.importMode b).documents tokens x.names).filterMap
          (·.roleChange? index token role) =
        x.names.ofTokens index
          ((loggedEvents b.logs).flatMap fun e => x.network.roleReports token role e.event) := by
    intro index token role
    rw [Digested.filterMap_documents _ tokens x.names (fun _ => Document.roleChange?_eq_none)
        fun name => filterMap_roleChange?_roleDocuments name index token role _,
      ← Network.noted_readLogs x.network b.stamp]
    rfl
  refine ⟨hroles, fun index hindex token role start => ?_, fun index => ?_⟩
  · rw [hroles, IndexNames.holdersAfter_ofTokens hindex]
  · rw [Digested.filterMap_documents _ tokens x.names (fun _ => Document.propertyChange?_eq_none)
        fun name => filterMap_propertyChange?_roleDocuments name index _,
      ← Network.properties_readLogs x.network b.stamp]
    rfl

/-- Whoever gets the right to create items by a hand-over gets a document, though the event names no
role at all. -/
theorem Indexer.yields_roles_of_hand_over :
    let handsOver : Event :=
      { address := [1], identifier := "ESDTNFTCreateRoleTransfer",
        topics := [Utf8.encode "T", [], [], Utf8.encode "1"] }
    let b : Block := { pool := some { logs := [⟨"aa", ⟨[2], [handsOver]⟩⟩] } }
    (∀ e ∈ loggedEvents b.logs, e.event.spelledRoles = []) ∧
      ∃ docs, ((⟨default, false, {}⟩ : Indexer).process .empty b).result = .ok docs ∧
        docs.filterMap (·.roleChange? "tokens" "T" "ESDTRoleNFTCreate") = [("01", true)] := by
  intro handsOver b
  obtain ⟨docs, hdocs⟩ := exists_process_result ⟨default, false, {}⟩ (fun _ _ => ⟨[], rfl⟩) b
  have hlogs : loggedEvents b.logs = [⟨"aa", [2], handsOver⟩] := rfl
  clear_value b
  have hreplays := (yields_roles ⟨default, false, {}⟩ .empty b).of_result hdocs
  refine ⟨?_, docs, hdocs, ?_⟩
  · -- the fourth topic is a digit
    rw [hlogs, List.forall_mem_singleton, Event.spelledRoles]
    refine if_neg fun h => ?_
    exact absurd h.2 (by decide)
  · rw [hreplays.roles, hlogs]
    decide

end ChainIndex
