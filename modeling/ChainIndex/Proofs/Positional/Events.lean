import ChainIndex.Events
import ChainIndex.Proofs.Positional.Network
import ChainIndex.Proofs.Positional.Text

/-!
# Topics by position

Three families of events read topics by position, each after a look at how many there are: what
follows the first ones, in pairs or one by one, and a first topic that must not be empty. A topic
that is missing elsewhere counts as empty. So all logs of a block are read, however few topics their
events have (`readLogs_eq`).

The equations are without a condition from the families upwards, and have one below: a function that
asks for a position is called with enough topics, and its theorem asks for as many. Three families
look at no position at all; they are taken over from the library (`Family.ofTotal`), and when the
others are seen to be equal to theirs, so are all (`eventFamilies_eq`).
-/

namespace ChainIndex.Positional

/-- A topic that is there. -/
theorem get_topics {e : Event} {i : Nat} (h : i < e.topics.length) :
    get e.topics i = .ok (e.topic i) := by
  rw [get, Event.topic, List.getD_eq_getElem?_getD, List.getElem?_eq_getElem h]
  rfl

/-! ### Changes of items -/

/-- The change of an item that an event by a caller tells. -/
def itemUpdateOf (n : Network) (caller : String) (nonce : UInt64) (e : Event) :
    Except Misread ItemUpdate := do
  let identifier ← tokenIdentifier (Utf8.lenient (e.topic 0)) nonce
  if e.identifier = setAttributesIdentifier then
    return ⟨identifier, caller, .setAttributes (e.topic 3)⟩
  else if e.identifier = addUrisIdentifier then
    let uris ← back e.topics 3
    return ⟨identifier, caller, .addUris uris⟩
  else
    return ⟨identifier, n.addresses.encodeOrEmpty (e.topic 3),
      .freeze (e.identifier == freezeIdentifier)⟩

theorem itemUpdateOf_eq (n : Network) (caller : String) (nonce : UInt64) {e : Event}
    (h : 4 ≤ e.topics.length) :
    itemUpdateOf n caller nonce e = .ok (n.itemUpdateOf caller nonce e) := by
  unfold itemUpdateOf Network.itemUpdateOf
  rw [tokenIdentifier_eq, ok_bind, back_of_le (Nat.le_of_succ_le h)]
  split
  · rfl
  · split <;> rfl

/-- What an event about changes of items changes. -/
def interpretItemUpdate (n : Network) (e : LoggedEvent) (r : Reading) :
    Except Misread (Option Reading) := do
  if e.event.identifier = pauseIdentifier ∨ e.event.identifier = unpauseIdentifier then
    match pauseOf? e.event with
    | none => return some r
    | some u => return some (r.learn (·.addItemUpdate u))
  else if e.event.topics.length < 4 then return some r
  else
    let caller := n.addresses.encodeOrEmpty e.event.address
    let nonce := Bytes.toUInt64 (e.event.topic 1)
    if caller.isEmpty then return some r
    else if nonce = 0 then return none
    else
      let u ← itemUpdateOf n caller nonce e.event
      return some (r.learn (·.addItemUpdate u))

theorem interpretItemUpdate_eq (n : Network) (e : LoggedEvent) (r : Reading) :
    interpretItemUpdate n e r = .ok (n.itemUpdates.interpret e r) := by
  unfold interpretItemUpdate Network.itemUpdates
  dsimp only
  split
  · cases pauseOf? e.event with
    | none => rfl
    | some u => rfl
  · split
    · rfl
    · next h =>
      rw [itemUpdateOf_eq n _ _ (Nat.not_lt.mp h), ok_bind]
      split
      · rfl
      · split <;> rfl

/-! ### Changes of roles and properties -/

/-- The name and the truth value of a property. -/
def propertyOfPair (pair : List Bytes) : Except Misread (String × Bool) := do
  let name ← get pair 0
  let value ← get pair 1
  return (Utf8.lenient name, topicFlag value)

/-- Reading in pairs goes right. -/
theorem mapM_propertyOfPair_groups (topics : List Bytes) :
    (groups 2 topics).mapM propertyOfPair = .ok (propertyPairs topics) := by
  induction topics using propertyPairs.induct with
  | case1 name value rest ih =>
      have hgroups : groups 2 (name :: value :: rest) = [name, value] :: groups 2 rest :=
        groups_append (by decide) [name, value] rest rfl
      rw [hgroups, List.mapM_cons, ih]
      rfl
  | case2 topics hshort =>
      have hlength : topics.length < 2 := by
        match topics with
        | [] | [_] => simp
        | _ :: _ :: _ => exact absurd rfl (hshort _ _ _)
      rw [groups_of_length_lt hlength, propertyPairs]
      · rfl
      · exact hshort

/-- The new properties that an event tells. -/
def propertyChangeOf (e : Event) : Except Misread PropertyChange := do
  let topics ← back e.topics 2
  let properties ← (groups 2 topics).mapM propertyOfPair
  return ⟨Utf8.lenient (e.topic 0), .ofList properties⟩

theorem propertyChangeOf_eq {e : Event} (h : 4 ≤ e.topics.length) :
    propertyChangeOf e = .ok (ChainIndex.propertyChangeOf e) := by
  rw [propertyChangeOf, back_of_le (Nat.le_trans (by decide) h), ok_bind,
    mapM_propertyOfPair_groups, ok_bind]
  rfl

/-- The roles that an event changes, each with its change, in order. -/
def roleChangesOf (n : Network) (e : Event) : Except Misread (List (String × RoleChange)) := do
  let token := Utf8.lenient (e.topic 0)
  let address := n.addresses.encodeOrEmpty e.address
  if e.identifier = handOverIdentifier then
    return [(createRole, ⟨token, address, topicFlag (e.topic 3)⟩)]
  else
    let topics ← back e.topics 3
    let roles := topics.map Utf8.lenient
    if roles.all isRoleName then
      return roles.map fun role =>
        (role, ⟨token, if role = burnForAllRole then "" else address,
          grantIdentifiers.contains e.identifier⟩)
    else return []

theorem roleChangesOf_eq (n : Network) {e : Event} (h : 4 ≤ e.topics.length) :
    roleChangesOf n e = .ok (n.roleChangesOf e) := by
  unfold roleChangesOf Network.roleChangesOf
  dsimp only
  rw [back_of_le (Nat.le_of_succ_le h), ok_bind]
  split
  · rfl
  · split <;> rfl

/-- What an event about roles and properties changes. -/
def interpretRoleChange (n : Network) (e : LoggedEvent) (r : Reading) :
    Except Misread (Option Reading) := do
  if e.event.topics.length < 4 then return some r
  else if e.event.identifier = propertiesIdentifier then
    let change ← propertyChangeOf e.event
    return some (r.learn fun f => { f with roleBook := f.roleBook.addProperties change })
  else
    let changes ← roleChangesOf n e.event
    return some (r.learn fun f =>
      { f with roleBook := changes.foldl (fun b c => b.addRole c.1 c.2) f.roleBook })

theorem interpretRoleChange_eq (n : Network) (e : LoggedEvent) (r : Reading) :
    interpretRoleChange n e r = .ok (n.roleChanges.interpret e r) := by
  unfold interpretRoleChange Network.roleChanges
  dsimp only
  split
  · rfl
  · next h =>
    rw [propertyChangeOf_eq (Nat.not_lt.mp h), roleChangesOf_eq n (Nat.not_lt.mp h)]
    split <;> rfl

/-! ### Issues of tokens -/

/-- The record that an event makes of a token. It is first made with the sender as its owner; a
change of ownership then puts the new owner in its place. -/
def issueOf? (n : Network) (stamp : BlockStamp) (e : Event) :
    Except Misread (Option TokenRecord) := do
  if e.topics.length < 4 then return none
  let collection ← get e.topics 0
  if collection.isEmpty then return none
  let hasDecimals := e.topics.length = 5 ∧ e.identifier ≠ transferIdentifier
  let decimals := if hasDecimals then Bytes.toUInt64 (e.topic 4) else 0
  let t := n.issuedToken stamp e decimals (n.addresses.encodeOrEmpty e.address)
  if e.identifier = transferIdentifier ∧ 4 < e.topics.length then
    let owner := n.addresses.encodeOrEmpty (e.topic 4)
    let owners ← modify t.owners 0 fun o => { o with address := owner }
    return some { t with transfersOwnership := true, currentOwner := owner, owners }
  return some t

theorem issueOf?_eq (n : Network) (stamp : BlockStamp) (e : Event) :
    issueOf? n stamp e = .ok (n.issueOf? stamp e) := by
  unfold issueOf? Network.issueOf?
  -- the first topic is looked at only when there are four
  by_cases hshort : e.topics.length < 4
  · rw [if_pos hshort, if_pos (.inl hshort)]
    rfl
  · rw [if_neg hshort, get_topics (by omega), ok_bind]
    by_cases hempty : (e.topic 0).isEmpty = true
    · rw [if_pos hempty, if_pos (.inr hempty)]
      rfl
    · rw [if_neg hempty, if_neg (not_or.mpr ⟨hshort, hempty⟩)]
      by_cases htransfer : e.identifier = transferIdentifier
      · by_cases hlength : e.topics.length = 4
        · simp [htransfer, hlength]
        · have hlong : 4 < e.topics.length := by omega
          simp [htransfer, hlength, hlong, Network.issuedToken, modify]
      · simp [htransfer]

/-- What an event about a token as a whole changes. -/
def interpretIssue (n : Network) (stamp : BlockStamp) (e : LoggedEvent) (r : Reading) :
    Except Misread (Option Reading) := do
  match ← issueOf? n stamp e.event with
  | none => return some r
  | some t => return some (r.learn fun f => { f with issued := f.issued ++ [t] })

theorem interpretIssue_eq (n : Network) (stamp : BlockStamp) (e : LoggedEvent) (r : Reading) :
    interpretIssue n stamp e r = .ok ((n.issues stamp).interpret e r) := by
  unfold interpretIssue Network.issues
  rw [issueOf?_eq, ok_bind]
  dsimp only
  cases n.issueOf? stamp e.event with
  | none => rfl
  | some t => rfl

/-! ### Items as a whole -/

/-- The record of an item that an event is about. -/
def itemOf (stamp : BlockStamp) (e : Event) : Except Misread TokenRecord := do
  let collection := Utf8.lenient (e.topic 0)
  let nonce := Bytes.toUInt64 (e.topic 1)
  let identifier ← tokenIdentifier collection nonce
  return {
    collection
    identifier
    nonce
    timestamp := stamp.timestamp
    timestampMs := stamp.timestampMs }

@[simp]
theorem itemOf_eq (stamp : BlockStamp) (e : Event) :
    itemOf stamp e = .ok (ChainIndex.Network.itemOf stamp e) := by
  rw [itemOf, tokenIdentifier_eq]
  rfl

/-- The item that an event creates, if its text can be read. -/
def createdItemOf? (n : Network) (stamp : BlockStamp) (e : Event) :
    Except Misread (Option TokenRecord) := do
  if e.topics.length < 4 then return none
  match (Json.ofBytes? (e.topic 3)).bind CreatedMetadata.ofItemJson? with
  | none => return none
  | some none => return some (← itemOf stamp e)
  | some (some m) =>
    let item ← itemOf stamp e
    let metadata ← metadataOf (n.rawMetadata m)
    return some { item with metadata := some metadata }

@[simp]
theorem createdItemOf?_eq (n : Network) (stamp : BlockStamp) (e : Event) :
    createdItemOf? n stamp e = .ok (n.createdItemOf? stamp e) := by
  unfold createdItemOf? Network.createdItemOf?
  split
  · rfl
  · match (Json.ofBytes? (e.topic 3)).bind CreatedMetadata.ofItemJson? with
    | none => rfl
    | some none => simp [Network.itemOf]
    | some (some m) => simp [metadataOf_eq]

/-- What a shard notes of an event by an account of its own. -/
def noteOwn (n : Network) (stamp : BlockStamp) (e : Event) (f : Findings) :
    Except Misread Findings := do
  if e.identifier = createIdentifier then
    match ← createdItemOf? n stamp e with
    | none => return f
    | some t => return { f with created := f.created.add t }
  else
    let item ← itemOf stamp e
    return { f with removed := f.removed.add item }

theorem noteOwn_eq (n : Network) (stamp : BlockStamp) (e : Event) (f : Findings) :
    noteOwn n stamp e f = .ok (n.noteOwn stamp e f) := by
  unfold noteOwn Network.noteOwn
  split
  · rw [createdItemOf?_eq, ok_bind]
    cases n.createdItemOf? stamp e with
    | none => rfl
    | some t => rfl
  · rw [itemOf_eq]
    rfl

/-- What a shard notes of an event about an item that somebody of its own has held. -/
def noteHeld (n : Network) (stamp : BlockStamp) (e : Event) (f : Findings) :
    Except Misread Findings := do
  if e.identifier = wipeIdentifier ∧ 4 ≤ e.topics.length then
    let shard ← shardOf n.sharding (e.topic 3)
    if shard = stamp.shard then
      let item ← itemOf stamp e
      return { f with removed := f.removed.add item }
    return f
  return f

theorem noteHeld_eq (n : Network) (stamp : BlockStamp) (e : Event) (f : Findings) :
    noteHeld n stamp e f = .ok (n.noteHeld stamp e f) := by
  unfold noteHeld Network.noteHeld
  by_cases hwipe : e.identifier = wipeIdentifier ∧ 4 ≤ e.topics.length
  · by_cases hshard : n.sharding.shardOf (e.topic 3) = stamp.shard <;> simp [hwipe, hshard]
  · rw [if_neg hwipe, if_neg fun h => hwipe ⟨h.1, h.2.1⟩]
    rfl

/-- What an event about an item as a whole changes. -/
def interpretItem (n : Network) (stamp : BlockStamp) (e : LoggedEvent) (r : Reading) :
    Except Misread (Option Reading) := do
  if e.event.topics.length < 2 then return some r
  else if Bytes.toUInt64 (e.event.topic 1) = 0 then return none
  else
    let shard ← shardOf n.sharding e.event.address
    let f ← if shard = stamp.shard then noteOwn n stamp e.event r.findings else pure r.findings
    let f ← noteHeld n stamp e.event f
    return some (r.learn fun _ => f)

theorem interpretItem_eq (n : Network) (stamp : BlockStamp) (e : LoggedEvent) (r : Reading) :
    interpretItem n stamp e r = .ok ((n.items stamp).interpret e r) := by
  unfold interpretItem Network.items
  dsimp only
  split
  · rfl
  · split
    · rfl
    · rw [shardOf_eq, ok_bind, noteOwn_eq]
      split <;> simp [noteHeld_eq, Reading.learn]

/-! ### Logs -/

/-- A family of events that may be read by position. -/
structure Family where
  identifiers : List String
  interpret : LoggedEvent → Reading → Except Misread (Option Reading)

/-- A family whose events are read without a look at a position. -/
def Family.ofTotal (f : EventFamily) : Family :=
  ⟨f.identifiers, fun e r => .ok (f.interpret e r)⟩

/-- The families of events in order. -/
def eventFamilies (n : Network) (stamp : BlockStamp) : List Family :=
  [.ofTotal (n.deploys stamp), .ofTotal endings,
    ⟨n.itemUpdates.identifiers, interpretItemUpdate n⟩,
    ⟨n.roleChanges.identifiers, interpretRoleChange n⟩,
    ⟨(n.issues stamp).identifiers, interpretIssue n stamp⟩, .ofTotal (n.delegations stamp),
    ⟨(n.items stamp).identifiers, interpretItem n stamp⟩]

theorem eventFamilies_eq (n : Network) (stamp : BlockStamp) :
    eventFamilies n stamp = (n.eventFamilies stamp).map Family.ofTotal := by
  have hitemUpdates : interpretItemUpdate n = fun e r => .ok (n.itemUpdates.interpret e r) :=
    funext₂ (interpretItemUpdate_eq n)
  have hroleChanges : interpretRoleChange n = fun e r => .ok (n.roleChanges.interpret e r) :=
    funext₂ (interpretRoleChange_eq n)
  have hissues : interpretIssue n stamp = fun e r => .ok ((n.issues stamp).interpret e r) :=
    funext₂ (interpretIssue_eq n stamp)
  have hitems : interpretItem n stamp = fun e r => .ok ((n.items stamp).interpret e r) :=
    funext₂ (interpretItem_eq n stamp)
  rw [eventFamilies, hitemUpdates, hroleChanges, hissues, hitems]
  rfl

/-- What a family makes of an event; an event that it does not list is declined. -/
def offer (f : Family) (e : LoggedEvent) (r : Reading) : Except Misread (Option Reading) :=
  if f.identifiers.contains e.event.identifier then f.interpret e r else .ok none

/-- Offers an event to families in order. -/
def dispatch (families : List Family) (e : LoggedEvent) (r : Reading) : Except Misread Reading := do
  let changed ← families.findSomeM? fun f => offer f e r
  return changed.getD r

/-- Interprets the events of a log in order. -/
def readLog (families : List Family) (r : Reading) (log : LogEntry) : Except Misread Reading := do
  let read ← log.log.events.foldlM (fun r event => do
    let r ← dispatch families ⟨log.hash, log.log.address, event⟩ r
    return r.markOperations log.hash) r
  return read.markLogs log.hash

/-- What logs tell of transactions and results, and what else they tell. -/
def readLogs (n : Network) (stamp : BlockStamp) (logs : List LogEntry) (txs : List Transaction)
    (results : List ContractResult) : Except Misread Reading :=
  logs.foldlM (readLog (eventFamilies n stamp)) ⟨txs, results, {}⟩

theorem offer_ofTotal (f : EventFamily) (e : LoggedEvent) (r : Reading) :
    offer (.ofTotal f) e r = .ok (f.offer e r) :=
  (apply_ite Except.ok _ _ _).symm

/-- Families that read without a look at a position are asked as those of the library are. -/
theorem dispatch_ofTotal (families : List EventFamily) (e : LoggedEvent) (r : Reading) :
    dispatch (families.map Family.ofTotal) e r = .ok (EventFamily.dispatch families e r) := by
  have hchanged : ((families.map Family.ofTotal).findSomeM? fun f => offer f e r) =
      .ok (families.findSome? fun f => f.offer e r) := by
    induction families with
    | nil => rfl
    | cons f families ih =>
        rw [List.map_cons, List.findSomeM?, offer_ofTotal, ok_bind, List.findSome?_cons]
        cases f.offer e r with
        | none => exact ih
        | some r' => rfl
  rw [dispatch, hchanged]
  rfl

/-- Reading the logs of a block goes right, whatever their events. -/
theorem readLogs_eq (n : Network) (stamp : BlockStamp) (logs : List LogEntry)
    (txs : List Transaction) (results : List ContractResult) :
    readLogs n stamp logs txs results = .ok (n.readLogs stamp logs txs results) := by
  rw [readLogs, eventFamilies_eq]
  refine foldlM_eq_ok (fun r log => ?_) logs _
  rw [readLog, foldlM_eq_ok (g := fun r event =>
    (EventFamily.dispatch _ ⟨log.hash, log.log.address, event⟩ r).markOperations log.hash)
      fun r event => ?_]
  · rfl
  · rw [dispatch_ofTotal]
    rfl

end ChainIndex.Positional
