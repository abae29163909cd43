import ChainIndex.Account.Build

/-!
# How often a tag is counted

An item counts once for each of its tags (`TagCounts.get?_addItem`). So the count of a tag is the
number of entries that have it (`AccountReader.get?_tagCounts`), and no tag is counted more often
than there are items (`AccountReader.tagCount_le`).

An item that lists a tag twice counts once for it, since its tags are made distinct before they are
counted. Distinct tags do not come in each other's way, so the count of one tag can be followed by
itself.
-/

namespace ChainIndex

namespace TagCounts

/-- Distinct tags are each counted once. -/
theorem get?_foldl_increment {tags : List String} (h : tags.Nodup) (counts : TagCounts)
    (tag : String) :
    (tags.foldl increment counts).get? tag =
      if tag ∈ tags then some ((counts.get? tag).getD 0 + 1) else counts.get? tag := by
  induction tags generalizing counts with
  | nil => rfl
  | cons t tags ih =>
      obtain ⟨hmem, htags⟩ := List.nodup_cons.mp h
      rw [List.foldl_cons, ih htags, increment, Table.get?_alter]
      by_cases heq : t = tag
      · subst heq
        rw [if_neg hmem, if_pos rfl, if_pos List.mem_cons_self]
      · simp [heq, Ne.symm heq]

theorem nodup_eraseDups (tags : List String) : tags.eraseDups.Nodup := by
  match tags with
  | [] => exact .nil
  | tag :: tags =>
    rw [List.eraseDups_cons, List.nodup_cons, List.mem_eraseDups]
    exact ⟨by simp, nodup_eraseDups (tags.filter fun t => !t == tag)⟩
termination_by tags.length
decreasing_by exact Nat.lt_succ_of_le (List.length_filter_le _ _)

theorem mem_distinctTags {tags : List String} {tag : String} :
    tag ∈ distinctTags tags ↔ tag ∈ tags ∧ tag ≠ "" := by
  rw [distinctTags, List.mem_eraseDups, List.mem_filter]
  simp

theorem get?_addItem (counts : TagCounts) (tags : List String) (tag : String) :
    (counts.addItem tags).get? tag =
      if tag ∈ distinctTags tags then some ((counts.get? tag).getD 0 + 1)
      else counts.get? tag :=
  get?_foldl_increment (nodup_eraseDups _) counts tag

end TagCounts

/-- A tag that some entries have counts once for each of them. -/
theorem AccountReader.get?_tagCounts (r : AccountReader) (entries : List HoldingEntry)
    (tag : String) :
    let k := entries.countP fun e => tag ∈ TagCounts.distinctTags (r.createdTags e)
    (r.tagCounts entries).get? tag = if 0 < k then some k else none := by
  -- the entries add to whatever has been counted before them
  have hcounts : ∀ counts : TagCounts,
      (entries.foldl (fun counts e => counts.addItem (r.createdTags e)) counts).get? tag =
        if 0 < entries.countP fun e => tag ∈ TagCounts.distinctTags (r.createdTags e) then
          some ((counts.get? tag).getD 0 +
            entries.countP fun e => tag ∈ TagCounts.distinctTags (r.createdTags e))
        else counts.get? tag := by
    induction entries with
    | nil => exact fun _ => rfl
    | cons e rest ih =>
        intro counts
        rw [List.foldl_cons, ih, TagCounts.get?_addItem, List.countP_cons]
        by_cases he : tag ∈ TagCounts.distinctTags (r.createdTags e)
        · simp only [he, if_true, decide_true, Option.getD_some, Nat.zero_lt_succ]
          split <;> congr 1 <;> omega
        · simp only [he, if_false, decide_false, Bool.false_eq_true, Nat.add_zero]
  have hempty := hcounts .empty
  rw [← tagCounts, show (Table.empty : TagCounts).get? tag = none from rfl, Option.getD_none,
    Nat.zero_add] at hempty
  exact hempty

/-- No tag is counted more often than there are items. -/
theorem AccountReader.tagCount_le (r : AccountReader) {entries : List HoldingEntry} {tag : String}
    {n : Nat} (h : (r.tagCounts entries).get? tag = some n) : n ≤ entries.length := by
  rw [get?_tagCounts] at h
  split at h
  · exact Option.some.inj h ▸ List.countP_le_length
  · cases h

end ChainIndex
