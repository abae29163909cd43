import ChainIndex.Proofs.Events.Parts
import Mathlib.Data.List.Pairwise

/-!
# Families of events do not interfere

At most one family ever claims an event, so it does not matter in which order the families are asked
(`EventFamily.readLogs_perm`). And each part of what the logs tell has one family, so two lists of
logs tell the same as soon as they agree on the events of each family, however these are mixed with
the events of other families and spread over logs (`Network.readLogs_independent`).

Marks for logs and operations are left out, since any event sets them. They do depend on how events
are spread over logs.
-/

namespace ChainIndex

namespace EventFamily

variable {families families' : List EventFamily} {f g : EventFamily} {e : LoggedEvent} {r : Reading}

theorem Disjoint.perm (h : Disjoint families) (hperm : families'.Perm families) :
    Disjoint families' := by
  refine List.Pairwise.perm h hperm.symm ?_
  intro f g hdisjoint i hg hf
  exact hdisjoint i hf hg

/-- An event is read in the same way in whatever order the families are asked. -/
theorem dispatch_perm (hdisjoint : Disjoint families) (hperm : families'.Perm families)
    (e : LoggedEvent) (r : Reading) : dispatch families' e r = dispatch families e r := by
  by_cases hlisted : ∃ f ∈ families, e.event.identifier ∈ f.identifiers
  · obtain ⟨f, hf, hid⟩ := hlisted
    rw [dispatch_eq_of_mem hdisjoint hf hid,
      dispatch_eq_of_mem (hdisjoint.perm hperm) (hperm.mem_iff.mpr hf) hid]
  · have hnone : ∀ f ∈ families, e.event.identifier ∉ f.identifiers :=
      fun f hf hid => hlisted ⟨f, hf, hid⟩
    rw [dispatch_of_unlisted hnone,
      dispatch_of_unlisted fun f hf => hnone f (hperm.mem_iff.mp hf)]

/-- Logs are read in the same way in whatever order the families are asked. -/
theorem readLogs_perm (hdisjoint : Disjoint families) (hperm : families'.Perm families)
    (r : Reading) (logs : List LogEntry) :
    readLogs families' r logs = readLogs families r logs := by
  have hdispatch : dispatch families' = dispatch families := by
    funext e r
    exact dispatch_perm hdisjoint hperm e r
  unfold readLogs readLog
  rw [hdispatch]

/-- Families in which no two elements list an event have no more than one that claims it. -/
theorem Disjoint.length_filter_offer_le (h : Disjoint families) (e : LoggedEvent) (r : Reading) :
    (families.filter fun f => (f.offer e r).isSome).length ≤ 1 := by
  have hlisted : ∀ f : EventFamily, (f.offer e r).isSome → e.event.identifier ∈ f.identifiers := by
    intro f hsome
    by_contra hid
    rw [offer_of_not_mem hid] at hsome
    cases hsome
  induction families with
  | nil => exact Nat.zero_le 1
  | cons f rest ih =>
      obtain ⟨hf, hrest⟩ := List.pairwise_cons.mp h
      rw [List.filter_cons]
      split
      · next hsome =>
          -- no other family lists the event
          have hnone : (rest.filter fun g => (g.offer e r).isSome) = [] := by
            rw [List.filter_eq_nil_iff]
            intro g hg hgsome
            exact hf g hg _ (hlisted f hsome) (hlisted g hgsome)
          rw [hnone]
          exact Nat.le_refl 1
      · exact ih hrest

/-- Where the family that lists an event declines it, no other one claims it. -/
theorem Disjoint.offer_eq_none (h : Disjoint families) (hf : f ∈ families)
    (hlisted : f.lists e = true) (hdeclined : f.offer e r = none) :
    ∀ g ∈ families, g.offer e r = none := by
  intro g hg
  by_cases hid : e.event.identifier ∈ g.identifiers
  · by_cases heq : f = g
    · rw [← heq, hdeclined]
    · -- two families with the identifier would not be disjoint
      have hsymm : Std.Symm fun f g : EventFamily => ∀ i ∈ f.identifiers, i ∉ g.identifiers :=
        ⟨fun _ _ hne i hg hf => hne i hf hg⟩
      exact absurd hid (List.Pairwise.forall h hf hg heq _ (lists_iff.mp hlisted))
  · exact offer_of_not_mem hid

end EventFamily

/-- The findings have no other parts than those of the families. -/
theorem Findings.eq_of_parts {f f' : Findings} (hcontracts : f.contracts = f'.contracts)
    (hendings : f.endings = f'.endings) (hupdates : f.itemUpdates = f'.itemUpdates)
    (hroles : f.roleBook = f'.roleBook) (hissued : f.issued = f'.issued)
    (hdelegations : f.delegations = f'.delegations)
    (hitems : f.createdAndRemoved = f'.createdAndRemoved) : f = f' := by
  obtain ⟨hdeployments, howners⟩ := Prod.mk.inj hcontracts
  obtain ⟨hcreated, hremoved⟩ := Prod.mk.inj hitems
  rw [Findings.mk.injEq]
  exact ⟨hcreated, hremoved, hissued, hdeployments, howners, hdelegations, hupdates, hroles,
    hendings⟩

namespace Network

/-- Families do not interfere. Logs that agree on the events of each family tell the same, and leave
the same transactions but for the marks for logs and operations; the order in which the families are
asked never counts; at most one of them claims an event, and none does if the one that lists it
declines. -/
theorem readLogs_independent (n : Network) (stamp : BlockStamp) :
    (∀ logs logs' txs results,
      (∀ f ∈ n.eventFamilies stamp,
        (loggedEvents logs).filter f.lists = (loggedEvents logs').filter f.lists) →
      (n.readLogs stamp logs txs results).findings =
          (n.readLogs stamp logs' txs results).findings ∧
        (n.readLogs stamp logs txs results).transactions.map (·.unmarked) =
          (n.readLogs stamp logs' txs results).transactions.map (·.unmarked)) ∧
    (∀ families : List EventFamily, families.Perm (n.eventFamilies stamp) → ∀ r logs,
      EventFamily.readLogs families r logs =
        EventFamily.readLogs (n.eventFamilies stamp) r logs) ∧
    (∀ e r, ((n.eventFamilies stamp).filter fun f => (f.offer e r).isSome).length ≤ 1) ∧
    ∀ e r, ∀ f ∈ n.eventFamilies stamp, f.lists e = true → f.offer e r = none →
      (∀ g ∈ n.eventFamilies stamp, g.offer e r = none) ∧
        EventFamily.dispatch (n.eventFamilies stamp) e r = r := by
  have hdisjoint := n.disjoint_eventFamilies stamp
  refine ⟨?_, ?_, hdisjoint.length_filter_offer_le, ?_⟩
  · intro logs logs' txs results hevents
    have hsame : ∀ {α : Type} {f : EventFamily} {part : Reading → α},
        EventFamily.Owns (n.eventFamilies stamp) f part →
          part (n.readLogs stamp logs txs results) =
            part (n.readLogs stamp logs' txs results) :=
      fun howns => howns.part_readLogs_eq hdisjoint _ (hevents _ howns.mem)
    have hcontracts := hsame (n.owns_deploys stamp)
    have houtcomes := hsame (n.owns_endings stamp)
    have hitems := hsame (n.owns_items stamp)
    obtain ⟨htxs, hrest⟩ := Prod.mk.inj houtcomes
    -- the transactions and what is known of others have one owner, so they come together
    exact ⟨Findings.eq_of_parts hcontracts (Prod.mk.inj hrest).2 (hsame (n.owns_itemUpdates stamp))
      (hsame (n.owns_roleChanges stamp)) (hsame (n.owns_issues stamp))
      (hsame (n.owns_delegations stamp)) hitems, htxs⟩
  · intro families hperm r logs
    exact EventFamily.readLogs_perm hdisjoint hperm r logs
  · intro e r f hf hlisted hdeclined
    have hnone := hdisjoint.offer_eq_none hf hlisted hdeclined
    refine ⟨hnone, ?_⟩
    rw [EventFamily.dispatch, List.findSome?_eq_none_iff.mpr hnone, Option.getD_none]

/-- An issue and a deployment may change places, families may be asked in reverse, and what the
family of items declines is read by no other one. -/
theorem readLogs_independent_of_issue_and_deployment :
    let n : Network := default
    let issue : Event := { identifier := "issue", topics := [[65], [], [], []] }
    let deployment : Event := { identifier := "SCDeploy", topics := [[1], [2]] }
    let burn : LoggedEvent := ⟨"aa", [], { identifier := "ESDTNFTBurn", topics := [[65], []] }⟩
    let logs : List LogEntry := [⟨"aa", { events := [issue, deployment] }⟩]
    let logs' : List LogEntry := [⟨"aa", { events := [deployment, issue] }⟩]
    (n.readLogs {} logs [] []).findings = (n.readLogs {} logs' [] []).findings ∧
      EventFamily.readLogs (n.eventFamilies {}).reverse {} logs =
        EventFamily.readLogs (n.eventFamilies {}) {} logs ∧
      EventFamily.dispatch (n.eventFamilies {}) burn {} = {} := by
  intro n issue deployment burn logs logs'
  obtain ⟨hsame, hperm, -, hdeclined⟩ := readLogs_independent n {}
  refine ⟨(hsame logs logs' [] [] ?_).1, hperm _ (List.reverse_perm _) {} logs,
    (hdeclined burn {} (n.items {}) ?_ ?_ ?_).2⟩
  · intro f hf
    simp only [eventFamilies, List.mem_cons, List.not_mem_nil, or_false] at hf
    rcases hf with rfl | rfl | rfl | rfl | rfl | rfl | rfl <;> rfl
  · exact (n.owns_items {}).mem
  · rfl
  · rfl

end Network

end ChainIndex
