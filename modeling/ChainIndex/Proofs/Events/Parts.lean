import ChainIndex.Proofs.Events.Family

/-!
# Every part of the findings has one family

What the logs tell falls into seven parts, and each of them is changed by one family alone:
contracts and their owners, how records have ended, changes of items, roles and properties, issues,
delegations, and items created or removed. The lemmas named for a family with `_frame` say what else
it leaves alone, those with `owns_` that its part is told by its own events (`EventFamily.Owns`).

A frame lemma is an equation: the reading is the old one but for the fields that are named. That is
more than a list of fields that stay, and any statement about another field follows by rewriting.
One case stands out. Endings change transactions as well as findings, and they find the transaction
of a result by way of the results, so their part is taken from the whole reading
(`Reading.outcomes`).
-/

namespace ChainIndex

/-! ### The parts -/

/-- What logs tell of contracts and their owners. -/
def Findings.contracts (f : Findings) : Table Deployment × Table OwnerRecord :=
  (f.deployments, f.owners)

/-- The items that logs create and those that they remove. -/
def Findings.createdAndRemoved (f : Findings) : Registry × Registry :=
  (f.created, f.removed)

/-- A transaction without the marks for logs and operations. -/
def Transaction.unmarked (t : Transaction) : Transaction :=
  { t with hasOperations := false, hasLogs := false }

/-- How records end: the transactions but for their marks, what names the results, and what is
known of transactions of other blocks. -/
def Reading.outcomes (r : Reading) :
    List Transaction × List (String × String) × Table Ending :=
  (r.transactions.map (·.unmarked), r.results.map fun s => (s.hash, s.originHash),
    r.findings.endings)

namespace Network

/-! ### What each family leaves alone

One lemma for each family, and from all of them `act_of_mem`, which says for each part that a family
is its owner or leaves it as it is. -/

/-- A new owner and a deployment are told by different events, so one of the two tables stays at any
rate. Nothing needs that: they count as one part. -/
theorem deploys_frame (n : Network) (stamp : BlockStamp) (e : LoggedEvent) (r : Reading) :
    ∃ deployments owners, (n.deploys stamp).act r e =
      { r with findings := { r.findings with deployments, owners } } := by
  simp only [EventFamily.act, deploys]
  split
  · cases n.newOwnerOf? stamp e with
    | none => exact ⟨_, _, rfl⟩
    | some told => exact ⟨_, _, rfl⟩
  · cases n.deploymentOf? stamp e with
    | none => exact ⟨_, _, rfl⟩
    | some told => exact ⟨_, _, rfl⟩

/-- This is the only family that changes a record, and then it is a transaction. -/
theorem endings_frame (e : LoggedEvent) (r : Reading) :
    ∃ transactions endings', endings.act r e =
      { r with transactions, findings := { r.findings with endings := endings' } } := by
  simp only [EventFamily.act, endings]
  cases hchanged : r.alterTransaction? e.hash (·.endedBy e.event.identifier) with
  | some changed =>
      obtain ⟨txs, -, rfl⟩ := Option.map_eq_some_iff.mp hchanged
      exact ⟨_, _, rfl⟩
  | none =>
      dsimp only
      split
      · exact ⟨_, _, rfl⟩
      · exact ⟨_, _, rfl⟩

theorem itemUpdates_frame (n : Network) (e : LoggedEvent) (r : Reading) :
    ∃ itemUpdates, n.itemUpdates.act r e =
      { r with findings := { r.findings with itemUpdates } } := by
  simp only [EventFamily.act, Network.itemUpdates]
  split
  · cases pauseOf? e.event with
    | none => exact ⟨_, rfl⟩
    | some u => exact ⟨_, rfl⟩
  · split
    · exact ⟨_, rfl⟩
    · split
      · exact ⟨_, rfl⟩
      · split
        · exact ⟨_, rfl⟩
        · exact ⟨_, rfl⟩

theorem roleChanges_frame (n : Network) (e : LoggedEvent) (r : Reading) :
    ∃ roleBook, n.roleChanges.act r e = { r with findings := { r.findings with roleBook } } := by
  simp only [EventFamily.act, roleChanges]
  split
  · exact ⟨_, rfl⟩
  · split
    · exact ⟨_, rfl⟩
    · exact ⟨_, rfl⟩

theorem issues_frame (n : Network) (stamp : BlockStamp) (e : LoggedEvent) (r : Reading) :
    ∃ issued, (n.issues stamp).act r e = { r with findings := { r.findings with issued } } := by
  simp only [EventFamily.act, issues]
  cases n.issueOf? stamp e.event with
  | none => exact ⟨_, rfl⟩
  | some t => exact ⟨_, rfl⟩

theorem delegations_frame (n : Network) (stamp : BlockStamp) (e : LoggedEvent) (r : Reading) :
    ∃ delegations, (n.delegations stamp).act r e =
      { r with findings := { r.findings with delegations } } := by
  simp only [EventFamily.act, Network.delegations]
  split
  · exact ⟨_, rfl⟩
  · cases n.delegationOf? stamp e with
    | none => exact ⟨_, rfl⟩
    | some d => exact ⟨_, rfl⟩

theorem noteOwn_frame (n : Network) (stamp : BlockStamp) (e : Event) (f : Findings) :
    ∃ created removed, n.noteOwn stamp e f = { f with created, removed } := by
  unfold noteOwn
  split
  · split
    · exact ⟨_, _, rfl⟩
    · exact ⟨_, _, rfl⟩
  · exact ⟨_, _, rfl⟩

theorem noteHeld_frame (n : Network) (stamp : BlockStamp) (e : Event) (f : Findings) :
    ∃ removed, n.noteHeld stamp e f = { f with removed } := by
  unfold noteHeld
  split
  · exact ⟨_, rfl⟩
  · exact ⟨_, rfl⟩

/-- An event is noted for the shard that acts and then for that of the holder, and both notes can
add to what is removed. -/
theorem items_frame (n : Network) (stamp : BlockStamp) (e : LoggedEvent) (r : Reading) :
    ∃ created removed, (n.items stamp).act r e =
      { r with findings := { r.findings with created, removed } } := by
  simp only [EventFamily.act, items]
  split
  · exact ⟨_, _, rfl⟩
  · split
    · exact ⟨_, _, rfl⟩
    · split
      · obtain ⟨created, removed, hown⟩ := n.noteOwn_frame stamp e.event r.findings
        obtain ⟨removed', hheld⟩ :=
          n.noteHeld_frame stamp e.event (n.noteOwn stamp e.event r.findings)
        exact ⟨created, removed', by rw [Option.getD_some, Reading.learn, hheld, hown]⟩
      · obtain ⟨removed, hheld⟩ := n.noteHeld_frame stamp e.event r.findings
        exact ⟨r.findings.created, removed, by rw [Option.getD_some, Reading.learn, hheld]⟩

/-- No family changes the part of another one. -/
theorem act_of_mem (n : Network) (stamp : BlockStamp) {g : EventFamily}
    (hg : g ∈ n.eventFamilies stamp) (e : LoggedEvent) (r : Reading) :
    (g = n.deploys stamp ∨ (g.act r e).findings.contracts = r.findings.contracts) ∧
      (g = endings ∨ (g.act r e).outcomes = r.outcomes) ∧
      (g = n.itemUpdates ∨ (g.act r e).findings.itemUpdates = r.findings.itemUpdates) ∧
      (g = n.roleChanges ∨ (g.act r e).findings.roleBook = r.findings.roleBook) ∧
      (g = n.issues stamp ∨ (g.act r e).findings.issued = r.findings.issued) ∧
      (g = n.delegations stamp ∨ (g.act r e).findings.delegations = r.findings.delegations) ∧
      (g = n.items stamp ∨
        (g.act r e).findings.createdAndRemoved = r.findings.createdAndRemoved) := by
  simp only [eventFamilies, List.mem_cons, List.not_mem_nil, or_false] at hg
  rcases hg with rfl | rfl | rfl | rfl | rfl | rfl | rfl
  · obtain ⟨_, _, heq⟩ := n.deploys_frame stamp e r
    rw [heq]
    exact ⟨.inl rfl, .inr rfl, .inr rfl, .inr rfl, .inr rfl, .inr rfl, .inr rfl⟩
  · obtain ⟨_, _, heq⟩ := endings_frame e r
    rw [heq]
    exact ⟨.inr rfl, .inl rfl, .inr rfl, .inr rfl, .inr rfl, .inr rfl, .inr rfl⟩
  · obtain ⟨_, heq⟩ := n.itemUpdates_frame e r
    rw [heq]
    exact ⟨.inr rfl, .inr rfl, .inl rfl, .inr rfl, .inr rfl, .inr rfl, .inr rfl⟩
  · obtain ⟨_, heq⟩ := n.roleChanges_frame e r
    rw [heq]
    exact ⟨.inr rfl, .inr rfl, .inr rfl, .inl rfl, .inr rfl, .inr rfl, .inr rfl⟩
  · obtain ⟨_, heq⟩ := n.issues_frame stamp e r
    rw [heq]
    exact ⟨.inr rfl, .inr rfl, .inr rfl, .inr rfl, .inl rfl, .inr rfl, .inr rfl⟩
  · obtain ⟨_, heq⟩ := n.delegations_frame stamp e r
    rw [heq]
    exact ⟨.inr rfl, .inr rfl, .inr rfl, .inr rfl, .inr rfl, .inl rfl, .inr rfl⟩
  · obtain ⟨_, _, heq⟩ := n.items_frame stamp e r
    rw [heq]
    exact ⟨.inr rfl, .inr rfl, .inr rfl, .inr rfl, .inr rfl, .inr rfl, .inl rfl⟩

/-! ### What each family goes by

An owner that finds its own part alike in two readings makes the same of it in both. -/

section

variable (n : Network) (stamp : BlockStamp)

theorem owns_deploys :
    EventFamily.Owns (n.eventFamilies stamp) (n.deploys stamp) fun r => r.findings.contracts := by
  refine EventFamily.owns_of_findings (by simp [eventFamilies]) ?_
    fun g hg e r => (n.act_of_mem stamp hg e r).1
  intro e r r' hpart
  obtain ⟨hdeployments, howners⟩ := Prod.mk.inj hpart
  simp only [EventFamily.act, deploys, Findings.contracts]
  split
  · cases n.newOwnerOf? stamp e <;> simp [Reading.learn, hdeployments, howners]
  · cases n.deploymentOf? stamp e <;> simp [Reading.learn, hdeployments, howners]

theorem owns_itemUpdates :
    EventFamily.Owns (n.eventFamilies stamp) n.itemUpdates fun r => r.findings.itemUpdates := by
  refine EventFamily.owns_of_findings (by simp [eventFamilies]) ?_
    fun g hg e r => (n.act_of_mem stamp hg e r).2.2.1
  intro e r r' hpart
  simp only [EventFamily.act, Network.itemUpdates]
  split
  · cases pauseOf? e.event <;> simp [Reading.learn, Findings.addItemUpdate, hpart]
  · split
    · exact hpart
    · split
      · exact hpart
      · split
        · exact hpart
        · simp [Reading.learn, Findings.addItemUpdate, hpart]

theorem owns_roleChanges :
    EventFamily.Owns (n.eventFamilies stamp) n.roleChanges fun r => r.findings.roleBook := by
  refine EventFamily.owns_of_findings (by simp [eventFamilies]) ?_
    fun g hg e r => (n.act_of_mem stamp hg e r).2.2.2.1
  intro e r r' hpart
  simp only [EventFamily.act, roleChanges]
  split
  · exact hpart
  · split <;> simp [Reading.learn, hpart]

theorem owns_issues :
    EventFamily.Owns (n.eventFamilies stamp) (n.issues stamp) fun r => r.findings.issued := by
  refine EventFamily.owns_of_findings (by simp [eventFamilies]) ?_
    fun g hg e r => (n.act_of_mem stamp hg e r).2.2.2.2.1
  intro e r r' hpart
  simp only [EventFamily.act, issues]
  cases n.issueOf? stamp e.event <;> simp [Reading.learn, hpart]

theorem owns_delegations :
    EventFamily.Owns (n.eventFamilies stamp) (n.delegations stamp)
      fun r => r.findings.delegations := by
  refine EventFamily.owns_of_findings (by simp [eventFamilies]) ?_
    fun g hg e r => (n.act_of_mem stamp hg e r).2.2.2.2.2.1
  intro e r r' hpart
  simp only [EventFamily.act, Network.delegations]
  split
  · exact hpart
  · cases n.delegationOf? stamp e <;> simp [Reading.learn, hpart]

theorem createdAndRemoved_noteOwn {e : Event} {f f' : Findings}
    (h : f.createdAndRemoved = f'.createdAndRemoved) :
    (n.noteOwn stamp e f).createdAndRemoved = (n.noteOwn stamp e f').createdAndRemoved := by
  obtain ⟨hcreated, hremoved⟩ := Prod.mk.inj h
  unfold noteOwn
  split
  · cases n.createdItemOf? stamp e <;> simp [Findings.createdAndRemoved, hcreated, hremoved]
  · simp [Findings.createdAndRemoved, hcreated, hremoved]

theorem createdAndRemoved_noteHeld {e : Event} {f f' : Findings}
    (h : f.createdAndRemoved = f'.createdAndRemoved) :
    (n.noteHeld stamp e f).createdAndRemoved = (n.noteHeld stamp e f').createdAndRemoved := by
  obtain ⟨hcreated, hremoved⟩ := Prod.mk.inj h
  unfold noteHeld
  split <;> simp [Findings.createdAndRemoved, hcreated, hremoved]

theorem owns_items :
    EventFamily.Owns (n.eventFamilies stamp) (n.items stamp)
      fun r => r.findings.createdAndRemoved := by
  refine EventFamily.owns_of_findings (by simp [eventFamilies]) ?_
    fun g hg e r => (n.act_of_mem stamp hg e r).2.2.2.2.2.2
  intro e r r' hpart
  simp only [EventFamily.act, items]
  split
  · exact hpart
  · split
    · exact hpart
    · refine n.createdAndRemoved_noteHeld stamp ?_
      split
      · exact n.createdAndRemoved_noteOwn stamp hpart
      · exact hpart

end

end Network

/-! ### How records end

The part that endings own shows the transactions without their marks, so it has to be seen that
ending a transaction and taking its marks away can change places. -/

/-- Changing the last element that a test finds goes on below a view of the elements that keeps the
test and the change. -/
theorem alterLast?_map {α β : Type} {p : α → Bool} {q : β → Bool} {f : α → α} {f' : β → β}
    {g : α → β} (hq : ∀ a, q (g a) = p a) (hf : ∀ a, f' (g a) = g (f a)) (as : List α) :
    alterLast? q f' (as.map g) = (alterLast? p f as).map (·.map g) := by
  induction as with
  | nil => rfl
  | cons a rest ih =>
      rw [List.map_cons, alterLast?, alterLast?, ih, hq]
      cases alterLast? p f rest with
      | some changed => rfl
      | none =>
          cases p a with
          | true => simp [hf]
          | false => rfl

/-- How a transaction has ended and how it is marked are different fields. -/
theorem Transaction.unmarked_endedBy (identifier : String) (t : Transaction) :
    t.unmarked.endedBy identifier = (t.endedBy identifier).unmarked := by
  unfold endedBy
  split
  · rfl
  · split <;> rfl

/-- The origin of a hash needs no more of the results than their names, which no event changes. -/
theorem originOf?_eq (hash : String) (results : List ContractResult) :
    originOf? hash results =
      (((results.map fun s => (s.hash, s.originHash)).filter (·.1 == hash)).getLast?.map
        (·.2)).filter (!·.isEmpty) := by
  rw [originOf?, lastResult?, List.filter_map, List.getLast?_map, Option.map_map]
  rfl

/-- Marking a record leaves the outcomes as they are, be it a transaction or a result: the marks of
the one are left out of them, and of the other they only have the names. -/
theorem outcomes_alterRecord (r : Reading) (hash : String) {f : Transaction → Transaction}
    {g : ContractResult → ContractResult} (hf : ∀ t, (f t).unmarked = t.unmarked)
    (hg : ∀ s, ((g s).hash, (g s).originHash) = (s.hash, s.originHash)) :
    (r.alterRecord hash f g).outcomes = r.outcomes := by
  rw [Reading.outcomes, Reading.outcomes, Network.map_transactions_alterRecord r hash hf,
    Network.map_results_alterRecord r hash f hg, Network.findings_alterRecord]

/-- What an event about an ending changes goes by what is known of endings alone. -/
theorem outcomes_act_endings {e : LoggedEvent} {r r' : Reading} (h : r.outcomes = r'.outcomes) :
    (endings.act r e).outcomes = (endings.act r' e).outcomes := by
  obtain ⟨htxs, hrest⟩ := Prod.mk.inj h
  obtain ⟨hresults, hendings⟩ := Prod.mk.inj hrest
  have horigin : originOf? e.hash r.results = originOf? e.hash r'.results := by
    rw [originOf?_eq, originOf?_eq, hresults]
  have halter : ∀ txs : List Transaction,
      alterLast? (·.hash == e.hash) (·.endedBy e.event.identifier) (txs.map (·.unmarked)) =
        (alterLast? (·.hash == e.hash) (·.endedBy e.event.identifier) txs).map
          (·.map (·.unmarked)) :=
    alterLast?_map (fun _ => rfl) (Transaction.unmarked_endedBy e.event.identifier)
  have hchanged := halter r.transactions
  rw [htxs, halter r'.transactions] at hchanged
  simp only [EventFamily.act, endings, Reading.alterTransaction?]
  cases hr : alterLast? (·.hash == e.hash) (·.endedBy e.event.identifier) r.transactions with
  | some txs =>
      -- the block has the transaction, in both readings
      rw [hr, Option.map_some, Option.map_eq_some_iff] at hchanged
      obtain ⟨txs', hr', heq⟩ := hchanged
      rw [hr']
      exact congrArg₂ Prod.mk heq.symm hrest
  | none =>
      -- it has it in neither, and the event may tell of the transaction behind a result
      rw [hr, Option.map_none, Option.map_eq_none_iff] at hchanged
      rw [hchanged]
      dsimp only [Option.map_none]
      rw [horigin]
      cases originOf? e.hash r'.results with
      | none => exact h
      | some origin =>
          cases Ending.ofIdentifier? e.event.identifier with
          | none => exact h
          | some report =>
              simp only [Option.getD_some, Reading.learn, Reading.outcomes, Findings.addEnding,
                htxs, hresults, hendings]

theorem Network.owns_endings (n : Network) (stamp : BlockStamp) :
    EventFamily.Owns (n.eventFamilies stamp) endings Reading.outcomes where
  mem := by simp [Network.eventFamilies]
  own _ _ _ := outcomes_act_endings
  others g hg e r := (n.act_of_mem stamp hg e r).2.1
  operations r hash := outcomes_alterRecord r hash (fun _ => rfl) fun _ => rfl
  marks r hash := outcomes_alterRecord r hash (fun _ => rfl) fun _ => rfl

end ChainIndex
