import ChainIndex.Proofs.Events.Parts
import ChainIndex.Proofs.Table

/-!
# What events change of roles and properties

The role book groups changes by role. Within a role it keeps them in the order of the events, and so
it does with those of one token (`Network.noted_readLogs`). Changes of properties are kept in the
order of the events as well (`Network.properties_readLogs`).

Both are collected from one event after another, so it is enough to know what a single event adds.
For a role this is a list: an event may name the role more than once, and each time is noted. In
between lies `Network.notedRoles`, all changes of roles that an event makes; picking out one role
and one token comes last (`Network.filter_notedRoles`), when the events have been put in a row.
-/

namespace ChainIndex

/-! ### What one event reports -/

/-- The identifiers of the events that name roles. -/
def roleIdentifiers : List String :=
  ["ESDTSetRole", "ESDTUnSetRole", "ESDTSetBurnRoleForAll", "ESDTUnSetBurnRoleForAll"]

/-- The roles that an event names: its topics from the fourth one on, unless one of these has
anything but letters. -/
def Event.spelledRoles (e : Event) : List String :=
  let roles := (e.topics.drop 3).map Utf8.lenient
  if 4 ≤ e.topics.length ∧ roles.all (·.toList.all Text.isLetter) = true then roles else []

/-- What an event reports of the properties of a token. -/
def Event.propertyReport? (e : Event) : Option PropertyChange :=
  if e.identifier = "upgradeProperties" ∧ 4 ≤ e.topics.length then some (propertyChangeOf e)
  else none

/-- What an event reports of a role on a token, in order: whose it becomes or no longer is, and
which of both. A hand-over names no role. It is always about creating items, and its fourth topic
tells which way it goes. -/
def Network.roleReports (n : Network) (token role : String) (e : Event) : List (String × Bool) :=
  if Utf8.lenient (e.topic 0) = token then
    let address := n.addresses.encodeOrEmpty e.address
    if e.identifier = "ESDTNFTCreateRoleTransfer" then
      if 4 ≤ e.topics.length ∧ role = "ESDTRoleNFTCreate" then [(address, topicFlag (e.topic 3))]
      else []
    else if e.identifier ∈ roleIdentifiers then
      (e.spelledRoles.filter (· == role)).map fun _ =>
        (if role = "ESDTRoleBurnForAll" then "" else address,
          e.identifier == "ESDTSetRole" || e.identifier == "ESDTSetBurnRoleForAll")
    else []
  else []

namespace RoleBook

/-- What is noted of a role on a token, in order. -/
def noted (b : RoleBook) (token role : String) : List (String × Bool) :=
  (((b.roles.get? role).getD []).filter (·.token == token)).map fun c => (c.address, c.granted)

theorem roles_foldl_addRole (changes : List (String × RoleChange)) (b : RoleBook) :
    (changes.foldl (fun b c => b.addRole c.1 c.2) b).roles =
      changes.foldl (fun t c => t.alter c.1 fun known => known.getD [] ++ [c.2]) b.roles := by
  induction changes generalizing b with
  | nil => rfl
  | cons c rest ih => exact ih (b.addRole c.1 c.2)

theorem properties_foldl_addRole (changes : List (String × RoleChange)) (b : RoleBook) :
    (changes.foldl (fun b c => b.addRole c.1 c.2) b).properties = b.properties := by
  induction changes generalizing b with
  | nil => rfl
  | cons c rest ih => exact ih (b.addRole c.1 c.2)

end RoleBook

/-- Values that are appended under their keys stay in order under each key. -/
theorem Table.getD_get?_foldl_append {β : Type} (es : List (String × β)) (t : Table (List β))
    (key : String) :
    ((es.foldl (fun t e => t.alter e.1 fun known => known.getD [] ++ [e.2]) t).get? key).getD [] =
      (t.get? key).getD [] ++ (es.filter (·.1 == key)).map Prod.snd := by
  induction es generalizing t with
  | nil => simp
  | cons e rest ih =>
      rw [List.foldl_cons, ih, get?_alter]
      by_cases hkey : e.1 = key
      · simp [hkey]
      · simp [hkey]

namespace Network

variable {n : Network} {stamp : BlockStamp} {e : LoggedEvent}

/-- The changes of roles that an event makes, each with its role. -/
def notedRoles (n : Network) (e : Event) : List (String × RoleChange) :=
  if e.identifier ∈ n.roleChanges.identifiers ∧ 4 ≤ e.topics.length ∧
      e.identifier ≠ propertiesIdentifier then
    n.roleChangesOf e
  else []

theorem act_roleChanges (e : LoggedEvent) (r : Reading) :
    (n.roleChanges.act r e).findings.roleBook =
      if e.event.topics.length < 4 then r.findings.roleBook
      else if e.event.identifier = propertiesIdentifier then
        r.findings.roleBook.addProperties (propertyChangeOf e.event)
      else (n.roleChangesOf e.event).foldl (fun b c => b.addRole c.1 c.2) r.findings.roleBook := by
  simp only [EventFamily.act, roleChanges]
  split
  · rfl
  · split
    · rfl
    · rfl

/-- An event of any family adds to the roles what it makes of them: nothing, where it is no event
about roles or is too short. -/
theorem roles_dispatch (e : LoggedEvent) (r : Reading) :
    (EventFamily.dispatch (n.eventFamilies stamp) e r).findings.roleBook.roles =
      (n.notedRoles e.event).foldl (fun t c => t.alter c.1 fun known => known.getD [] ++ [c.2])
        r.findings.roleBook.roles := by
  have howns := n.owns_roleChanges stamp
  unfold notedRoles
  by_cases hid : e.event.identifier ∈ n.roleChanges.identifiers
  · rw [howns.part_dispatch_of_mem (n.disjoint_eventFamilies stamp) hid, act_roleChanges]
    simp only [hid, true_and, ← Nat.not_lt, ne_eq]
    by_cases hshort : e.event.topics.length < 4
    · simp [hshort]
    · by_cases hproperties : e.event.identifier = propertiesIdentifier
      · simp [hshort, hproperties, RoleBook.addProperties]
      · simp [hshort, hproperties, RoleBook.roles_foldl_addRole]
  · rw [howns.part_dispatch_of_not_mem hid]
    simp [hid]

theorem properties_dispatch (e : LoggedEvent) (r : Reading) :
    (EventFamily.dispatch (n.eventFamilies stamp) e r).findings.roleBook.properties =
      e.event.propertyReport?.toList.foldl (fun known p => known ++ [p])
        r.findings.roleBook.properties := by
  have howns := n.owns_roleChanges stamp
  unfold Event.propertyReport?
  by_cases hid : e.event.identifier ∈ n.roleChanges.identifiers
  · rw [howns.part_dispatch_of_mem (n.disjoint_eventFamilies stamp) hid, act_roleChanges]
    by_cases hshort : e.event.topics.length < 4
    · simp [hshort, Nat.not_le.mpr hshort]
    · by_cases hproperties : e.event.identifier = propertiesIdentifier
      · have hname : propertiesIdentifier = "upgradeProperties" := rfl
        simp [hshort, hproperties, hname, Nat.le_of_not_lt hshort, RoleBook.addProperties]
      · have hname : e.event.identifier ≠ "upgradeProperties" := hproperties
        simp [hshort, hproperties, hname, RoleBook.properties_foldl_addRole]
  · have hname : e.event.identifier ≠ "upgradeProperties" := by
      rintro hname
      exact hid (by simp [roleChanges, propertiesIdentifier, hname])
    rw [howns.part_dispatch_of_not_mem hid]
    simp [hname]

/-! ### One event -/

theorem mem_roleChanges_identifiers_iff {identifier : String} :
    identifier ∈ n.roleChanges.identifiers ↔ identifier ∈ roleIdentifiers ∨
      identifier = handOverIdentifier ∨ identifier = propertiesIdentifier := by
  simp only [roleChanges, roleIdentifiers, List.mem_cons, List.not_mem_nil, or_false]
  tauto

theorem notedRoles_of_handOver {e : Event} (hid : e.identifier = handOverIdentifier) :
    n.notedRoles e =
      if 4 ≤ e.topics.length then
        [(createRole, ⟨Utf8.lenient (e.topic 0), n.addresses.encodeOrEmpty e.address,
          topicFlag (e.topic 3)⟩)]
      else [] := by
  have hne : handOverIdentifier ≠ propertiesIdentifier := by decide
  have hmem := (mem_roleChanges_identifiers_iff (n := n)).mpr (.inr (.inl hid))
  unfold notedRoles roleChangesOf
  rw [hid] at hmem
  simp only [hid, hmem, true_and, ne_eq, hne, not_false_eq_true, and_true, if_true]

theorem notedRoles_of_mem {e : Event} (hid : e.identifier ∈ roleIdentifiers) :
    n.notedRoles e = e.spelledRoles.map fun role =>
      (role, ⟨Utf8.lenient (e.topic 0),
        if role = burnForAllRole then "" else n.addresses.encodeOrEmpty e.address,
        grantIdentifiers.contains e.identifier⟩) := by
  have hothers : ∀ i ∈ roleIdentifiers, i ≠ handOverIdentifier ∧ i ≠ propertiesIdentifier := by
    decide
  obtain ⟨hover, hproperties⟩ := hothers _ hid
  have hmem := (mem_roleChanges_identifiers_iff (n := n)).mpr (.inl hid)
  have hspelled : isRoleName = fun role => role.toList.all Text.isLetter := rfl
  unfold notedRoles roleChangesOf Event.spelledRoles
  simp only [hmem, true_and, ne_eq, hproperties, not_false_eq_true, and_true, if_neg hover,
    hspelled]
  by_cases hlong : 4 ≤ e.topics.length
  · simp only [hlong, if_true, true_and]
    split <;> rfl
  · simp only [hlong, if_false, false_and, List.map_nil]

theorem notedRoles_of_other {e : Event} (hover : e.identifier ≠ handOverIdentifier)
    (hroles : e.identifier ∉ roleIdentifiers) : n.notedRoles e = [] := by
  unfold notedRoles
  rw [if_neg]
  rw [mem_roleChanges_identifiers_iff]
  tauto

/-- What is noted of one key among others is noted once for each time that it is named. -/
theorem map_snd_filter_map {β : Type} (f : String → β) (keys : List String) (key : String) :
    ((keys.map fun k => (k, f k)).filter (·.1 == key)).map Prod.snd =
      (keys.filter (· == key)).map fun _ => f key := by
  induction keys with
  | nil => rfl
  | cons k rest ih =>
      by_cases hkey : k = key
      · simpa [hkey] using ih
      · simpa [hkey] using ih

/-- Of a role on a token an event makes the changes that it reports. -/
theorem filter_notedRoles (n : Network) (token role : String) (e : Event) :
    ((((n.notedRoles e).filter (·.1 == role)).map Prod.snd).filter (·.token == token)).map
        (fun c => (c.address, c.granted)) = n.roleReports token role e := by
  unfold roleReports
  -- a hand-over notes one change, any other event one for each role that it names
  by_cases hover : e.identifier = "ESDTNFTCreateRoleTransfer"
  · rw [notedRoles_of_handOver hover]
    by_cases hlong : 4 ≤ e.topics.length
    · by_cases hrole : role = "ESDTRoleNFTCreate"
      · by_cases htoken : Utf8.lenient (e.topic 0) = token
        · simp [hover, hlong, hrole, htoken, createRole]
        · simp [hlong, hrole, htoken, createRole]
      · have hother : ¬ "ESDTRoleNFTCreate" = role := fun heq => hrole heq.symm
        simp [hover, hlong, hrole, hother, createRole]
    · simp [hover, hlong]
  · by_cases hid : e.identifier ∈ roleIdentifiers
    · have hgrants : grantIdentifiers.contains e.identifier =
          (e.identifier == "ESDTSetRole" || e.identifier == "ESDTSetBurnRoleForAll") := by
        simp only [grantIdentifiers, List.contains_cons, List.contains_nil, Bool.or_false]
      -- all roles that an event names are about one token, so the token is asked for once
      rw [notedRoles_of_mem hid, map_snd_filter_map, List.filter_map, hgrants]
      by_cases htoken : Utf8.lenient (e.topic 0) = token
      · have hall : (fun _ : String => (Utf8.lenient (e.topic 0) == token)) = fun _ => true := by
          simp [htoken]
        rw [if_pos htoken]
        simp only [if_neg hover, if_pos hid, Function.comp_def, hall, List.filter_true,
          List.map_map]
        rfl
      · simp [htoken, Function.comp_def]
    · rw [notedRoles_of_other hover hid]
      simp [hover, hid]

/-! ### A whole block -/

/-- What is noted of a role on a token is what the events report of it, in their order. -/
theorem noted_readLogs (n : Network) (stamp : BlockStamp) (logs : List LogEntry)
    (txs : List Transaction) (results : List ContractResult) (token role : String) :
    (n.readLogs stamp logs txs results).findings.roleBook.noted token role =
      (loggedEvents logs).flatMap fun e => n.roleReports token role e.event := by
  have hroles : (n.readLogs stamp logs txs results).findings.roleBook.roles =
      ((loggedEvents logs).flatMap fun e => n.notedRoles e.event).foldl
        (fun t c => t.alter c.1 fun known => known.getD [] ++ [c.2]) .empty :=
    EventFamily.findings_readLogs_foldl (v := (·.roleBook.roles)) roles_dispatch
      ⟨txs, results, {}⟩ logs
  have hempty : (Table.empty.get? role : Option (List RoleChange)) = none := rfl
  rw [RoleBook.noted, hroles, Table.getD_get?_foldl_append, hempty, Option.getD_none,
    List.nil_append]
  simp only [List.filter_flatMap, List.map_flatMap, filter_notedRoles]

/-- What is noted of properties is what the events report of them, in their order. -/
theorem properties_readLogs (n : Network) (stamp : BlockStamp) (logs : List LogEntry)
    (txs : List Transaction) (results : List ContractResult) :
    (n.readLogs stamp logs txs results).findings.roleBook.properties =
      (loggedEvents logs).filterMap fun e => e.event.propertyReport? := by
  have hproperties : (n.readLogs stamp logs txs results).findings.roleBook.properties =
      ((loggedEvents logs).flatMap fun e => e.event.propertyReport?.toList).foldl
        (fun known p => known ++ [p]) [] :=
    EventFamily.findings_readLogs_foldl (v := (·.roleBook.properties)) properties_dispatch
      ⟨txs, results, {}⟩ logs
  rw [hproperties, ← List.filterMap_eq_flatMap_toList, List.foldl_append_eq_append,
    List.nil_append]
  exact List.flatMap_singleton' _

end Network

end ChainIndex
