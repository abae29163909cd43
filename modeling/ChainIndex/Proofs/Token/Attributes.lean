import ChainIndex.Proofs.Text.Utf8
import ChainIndex.Token.Metadata
import Mathlib.Data.List.Basic

/-!
# The tags in attributes

`ListsTag` says which tags attributes list, without reading them part by part: one of the values of
the first segment that gives values to the key of tags, in lower case. The reader finds these tags
and no others (`mem_attributeTags`), and none of them is empty (`ListsTag.ne_empty`).

Attributes fall into segments at semicolons, a segment at colons, and values at commas. Only the
first two parts of a segment are read, so a segment with more colons still gives values; that they
end at the next colon is part of `GivesValues`. A segment that gives no tag at all, as its values
are empty, nevertheless hides the segments behind it.
-/

namespace ChainIndex

/-! ### Segments -/

/-- A segment gives values to a key: the key and a colon stand in front of them, and they end with
the segment or at the next colon. -/
def GivesValues (key values segment : List Char) : Prop :=
  ':' ∉ key ∧ ':' ∉ values ∧
    (segment = key ++ ':' :: values ∨ ∃ rest, segment = key ++ ':' :: (values ++ ':' :: rest))

/-- The first part of a text is the whole of it, or it stands in front of a separator. -/
theorem splitOn_eq_cons {α : Type} [DecidableEq α] (x : α) (s : List α) :
    (x ∉ s ∧ s.splitOn x = [s]) ∨
      ∃ first tail, s = first ++ x :: tail ∧ x ∉ first ∧
        s.splitOn x = first :: tail.splitOn x := by
  by_cases hx : x ∈ s
  · obtain ⟨first, tail, rfl, hfirst⟩ := List.eq_append_cons_of_mem hx
    exact .inr ⟨first, tail, rfl, hfirst, List.splitOn_append_cons_self_of_not_mem hfirst tail⟩
  · exact .inl ⟨hx, List.splitOn_eq_singleton hx⟩

/-- A segment gives values to a key if these two are its first parts. -/
theorem exists_splitOn_iff_givesValues {key values segment : List Char} :
    (∃ rest, segment.splitOn ':' = key :: values :: rest) ↔ GivesValues key values segment := by
  constructor
  · rintro ⟨rest, hsplit⟩
    rcases splitOn_eq_cons ':' segment with ⟨-, hwhole⟩ | ⟨first, tail, hsegment, hfirst, hparts⟩
    · rw [hwhole] at hsplit
      cases hsplit
    · rw [hparts] at hsplit
      obtain ⟨rfl, htail⟩ := List.cons.inj hsplit
      rcases splitOn_eq_cons ':' tail with ⟨hnone, hwhole⟩ | ⟨second, more, heq, hsecond, hparts⟩
      · rw [hwhole] at htail
        obtain ⟨rfl, -⟩ := List.cons.inj htail
        exact ⟨hfirst, hnone, .inl hsegment⟩
      · rw [hparts] at htail
        obtain ⟨rfl, -⟩ := List.cons.inj htail
        exact ⟨hfirst, hsecond, .inr ⟨more, heq ▸ hsegment⟩⟩
  · rintro ⟨hkey, hvalues, rfl | ⟨rest, rfl⟩⟩
    · refine ⟨[], ?_⟩
      rw [List.splitOn_append_cons_self_of_not_mem hkey, List.splitOn_eq_singleton hvalues]
    · refine ⟨rest.splitOn ':', ?_⟩
      rw [List.splitOn_append_cons_self_of_not_mem hkey,
        List.splitOn_append_cons_self_of_not_mem hvalues]

/-- The values that a segment lists are those that it gives, without the empty ones. -/
theorem segmentValues?_eq_some_iff {key : String} {segment : List Char} {listed : List String} :
    segmentValues? key segment = some listed ↔
      ∃ values, GivesValues key.toList values segment ∧
        listed = ((values.splitOn ',').filter (!·.isEmpty)).map String.ofList := by
  simp only [← exists_splitOn_iff_givesValues]
  unfold segmentValues?
  constructor
  · intro h
    split at h
    · next name values rest hsplit =>
        split at h
        · next hname => exact ⟨values, ⟨rest, hname ▸ hsplit⟩, (Option.some.inj h).symm⟩
        · cases h
    · cases h
  · rintro ⟨values, ⟨rest, hsplit⟩, rfl⟩
    rw [hsplit]
    exact if_pos rfl

/-! ### Attributes -/

/-- Attributes list a tag: it is among the values of the first segment that gives values to the key
of tags, in whatever case. -/
def ListsTag (attributes : Bytes) (tag : String) : Prop :=
  ∃ before segment after values value,
    (Utf8.lenient attributes).toList.splitOn ';' = before ++ segment :: after ∧
      GivesValues "tags".toList values segment ∧
      (∀ earlier ∈ before, ∀ others, ¬ GivesValues "tags".toList others earlier) ∧
      value ∈ values.splitOn ',' ∧ value ≠ [] ∧ Text.lowercase (String.ofList value) = tag

theorem mem_attributeTags {attributes : Bytes} {tag : String} :
    tag ∈ attributeTags attributes ↔ ListsTag attributes tag := by
  have hnone : ∀ segment, segmentValues? "tags" segment = none ↔
      ∀ others, ¬ GivesValues "tags".toList others segment := by
    intro segment
    rw [Option.eq_none_iff_forall_ne_some]
    simp only [ne_eq, segmentValues?_eq_some_iff]
    exact ⟨fun h others hgives => h _ ⟨others, hgives, rfl⟩,
      fun h _ hlisted => hlisted.elim fun others hothers => h others hothers.1⟩
  have hlisted : tag ∈ attributeTags attributes ↔
      ∃ listed, (((Utf8.lenient attributes).toList.splitOn ';').findSome?
        (segmentValues? "tags")) = some listed ∧ ∃ value ∈ listed, Text.lowercase value = tag := by
    rw [attributeTags, attributeValues, List.mem_map]
    cases ((Utf8.lenient attributes).toList.splitOn ';').findSome? (segmentValues? "tags") <;> simp
  rw [hlisted, ListsTag]
  -- the first segment that gives values is found, with a witness for those in front of it
  simp only [List.findSome?_eq_some_iff, hnone, segmentValues?_eq_some_iff]
  constructor
  · rintro ⟨-, ⟨before, segment, after, hsplit, ⟨values, hgives, rfl⟩, hearlier⟩, value, hvalue,
      htag⟩
    obtain ⟨chars, hchars, rfl⟩ := List.mem_map.mp hvalue
    obtain ⟨hchars, hne⟩ := List.mem_filter.mp hchars
    exact ⟨before, segment, after, values, chars, hsplit, hgives, hearlier, hchars,
      by simpa using hne, htag⟩
  · rintro ⟨before, segment, after, values, chars, hsplit, hgives, hearlier, hchars, hne, htag⟩
    refine ⟨_, ⟨before, segment, after, hsplit, ⟨values, hgives, rfl⟩, hearlier⟩,
      String.ofList chars, ?_, htag⟩
    exact List.mem_map.mpr ⟨chars, List.mem_filter.mpr ⟨hchars, by simpa using hne⟩, rfl⟩

/-- Attributes that name one tag list it. -/
theorem listsTag_encode {value : List Char} (hne : value ≠ [])
    (hplain : ∀ c ∈ value, c ∉ [';', ':', ',']) :
    ListsTag (Utf8.encode ("tags:" ++ String.ofList value))
      (Text.lowercase (String.ofList value)) := by
  have hmem : ∀ c ∈ [';', ':', ','], c ∉ value := fun c hc hvalue => hplain c hvalue hc
  have hsegment : ';' ∉ "tags".toList ++ ':' :: value := by
    simp [hmem ';' (by decide)]
  have htext : (Utf8.lenient (Utf8.encode ("tags:" ++ String.ofList value))).toList =
      "tags".toList ++ ':' :: value := by
    rw [Utf8.lenient_encode, String.toList_append, String.toList_ofList (l := value)]
    rfl
  refine ⟨[], _, [], value, value, ?_, ⟨by decide, hmem ':' (by decide), .inl rfl⟩, nofun, ?_,
    hne, rfl⟩
  · rw [htext, List.splitOn_eq_singleton hsegment, List.nil_append]
  · rw [List.splitOn_eq_singleton (hmem ',' (by decide))]
    exact List.mem_singleton_self value

/-! ### Lower case

Making a text lower-case may change how many characters it has, but a character never vanishes. -/

/-- In lower case, a text that is not empty is not empty. -/
theorem Text.lowercase_ne_empty {s : String} (h : s ≠ "") : lowercase s ≠ "" := by
  intro hlower
  rw [lowercase, String.ofList_eq_empty_iff] at hlower
  cases hchars : s.toList with
  | nil => exact h (String.toList_eq_nil_iff.mp hchars)
  | cons c rest =>
      rw [hchars, lowercaseAfter, List.append_eq_nil_iff] at hlower
      refine absurd hlower.1 ?_
      unfold lowercaseAt
      split
      · exact List.cons_ne_nil _ _
      · split <;> exact List.cons_ne_nil _ _

/-- A text without upper-case letters is left as it is. -/
theorem Text.lowercase_eq_self {cs : List Char}
    (h : ∀ c ∈ cs, c ≠ 'İ' ∧ c ≠ 'Σ' ∧ lowercaseChar c = c) :
    lowercase (String.ofList cs) = String.ofList cs := by
  have hafter : ∀ before, lowercaseAfter before cs = cs := by
    induction cs with
    | nil => exact fun _ => rfl
    | cons c rest ih =>
        intro before
        obtain ⟨⟨hdotted, hsigma, hlower⟩, hrest⟩ := List.forall_mem_cons.mp h
        rw [lowercaseAfter, lowercaseAt, if_neg hdotted, if_neg hsigma, hlower, ih hrest,
          List.singleton_append]
  rw [lowercase, String.toList_ofList, hafter]

theorem ListsTag.ne_empty {attributes : Bytes} {tag : String} (h : ListsTag attributes tag) :
    tag ≠ "" := by
  obtain ⟨_, _, _, _, value, -, -, -, -, hne, rfl⟩ := h
  exact Text.lowercase_ne_empty fun hempty => hne (String.ofList_eq_empty_iff.mp hempty)

end ChainIndex
