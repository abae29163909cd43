import ChainIndex.Proofs.Json
import ChainIndex.Search.Transactions

/-!
# The cost of a stored transaction

The body of a transaction names each part of its cost exactly once. So the two scripts that are
about the cost do the same thing from either side: `updateFee` puts the cost of one transaction into
the stored body of the other, `keepFields` puts the stored cost into a new body, and both leave the
body of the transaction that `withCostOf` describes.

A body is a list of members, and the scripts look for names in it. It is cut into the members of the
cost and those before and behind it, of which it is enough to know that they avoid three names. No
other field of a transaction is looked at, so a field that is added needs a proof of no more than
that its name is not one of the three.
-/

namespace ChainIndex

/-! ### Members that are left alone -/

namespace Json

variable {names : List String} {name : String} {xs : List (String × Json)}

/-- Putting a value under a name passes over members that avoid it. -/
theorem insertEntry_append_of_avoids (h : Avoids names xs) (hname : name ∈ names) (v : Json)
    (ys : List (String × Json)) :
    Dict.insertEntry name v (xs ++ ys) = xs ++ Dict.insertEntry name v ys := by
  induction xs with
  | nil => rfl
  | cons m rest ih =>
      obtain ⟨hm, hrest⟩ := avoids_cons.mp h
      have hne : m.1 ≠ name := fun heq => hm (heq ▸ hname)
      rw [List.cons_append, Dict.insertEntry, if_neg hne, ih hrest]
      rfl

/-- A new body keeps no stored value of members that avoid the fields to be kept. -/
theorem map_kept_of_avoids (h : Avoids names xs) (stored : List (String × Json)) :
    (xs.map fun m =>
      if names.contains m.1 then (m.1, (lookup m.1 stored).getD m.2) else m) = xs := by
  refine (List.map_congr_left fun m hm => ?_).trans (List.map_id xs)
  rw [if_neg (by simpa using h m hm)]
  rfl

end Json

/-! ### Transactions that share a cost -/

namespace Transaction

/-- A transaction with the cost of another one. -/
def withCostOf (source t : Transaction) : Transaction :=
  { t with gasUsed := source.gasUsed, fee := source.fee, feeNum := source.feeNum }

variable {source t : Transaction}

theorem avoids_membersBefore (t : Transaction) : Json.Avoids costFields t.membersBefore := by
  unfold membersBefore
  simp only [Json.avoids_cons, Json.avoids_nil, and_true]
  decide

theorem avoids_membersAfter (t : Transaction) : Json.Avoids costFields t.membersAfter := by
  unfold membersAfter
  simp (disch := decide) only [Json.avoids_append, Json.avoids_cons, Json.avoids_nil,
    Json.avoids_textField, Json.avoids_countField, Json.avoids_bytesField,
    Json.avoids_switchField, Json.avoids_listField, and_true, true_and]
  decide

theorem membersOf_toJson (t : Transaction) :
    t.toJson.membersOf = t.membersBefore ++ (t.costMembers ++ t.membersAfter) :=
  List.append_assoc _ _ _

/-- A stored value of the cost is that of the transaction. -/
theorem lookup_membersOf_toJson {name : String} (hname : name ∈ costFields) (t : Transaction) :
    Json.lookup name t.toJson.membersOf = Json.lookup name t.costMembers := by
  rw [membersOf_toJson, Json.lookup_append_of_avoids t.avoids_membersBefore hname]
  simp only [costFields, List.mem_cons, List.not_mem_nil, or_false] at hname
  rcases hname with rfl | rfl | rfl <;> simp [costMembers, Json.lookup]

/-- Changing the stored cost leaves the stored transaction with the new cost. -/
theorem apply_updateFee (body : Json) :
    (Replacement.updateFee source.gasUsed source.fee source.feeNum).apply body t.toJson =
      (source.withCostOf t).toJson := by
  have hput : ∀ name ∈ costFields, ∀ v ms,
      Dict.insertEntry name v (t.membersBefore ++ ms) =
        t.membersBefore ++ Dict.insertEntry name v ms :=
    fun name hname v ms =>
      Json.insertEntry_append_of_avoids t.avoids_membersBefore hname v ms
  rw [Replacement.apply, membersOf_toJson, hput _ (by decide), hput _ (by decide),
    hput _ (by decide)]
  have hcost : Dict.insertEntry "gasUsed" (.uint64 source.gasUsed)
      (Dict.insertEntry "fee" (.string source.fee) (Dict.insertEntry "feeNum"
        (.float source.feeNum) (t.costMembers ++ t.membersAfter))) =
      (source.withCostOf t).costMembers ++ t.membersAfter := by
    simp [costMembers, withCostOf, Dict.insertEntry]
  rw [hcost, ← List.append_assoc]
  rfl

/-- Keeping the stored cost leaves the new transaction with that cost. -/
theorem apply_keepFields_costFields :
    (Replacement.keepFields costFields).apply t.toJson source.toJson =
      (source.withCostOf t).toJson := by
  have hcost : (t.costMembers.map fun m =>
      if costFields.contains m.1 then
        (m.1, (Json.lookup m.1 source.toJson.membersOf).getD m.2) else m) =
      (source.withCostOf t).costMembers := by
    have hgasUsed := lookup_membersOf_toJson (show "gasUsed" ∈ costFields by decide) source
    have hfee := lookup_membersOf_toJson (show "fee" ∈ costFields by decide) source
    have hfeeNum := lookup_membersOf_toJson (show "feeNum" ∈ costFields by decide) source
    simp [costMembers, withCostOf, costFields, hgasUsed, hfee, hfeeNum, Json.lookup]
  -- the stored body has no part of a cost that the new one lacks
  have hextra : (source.toJson.membersOf.filter fun m =>
      costFields.contains m.1 && (Json.lookup m.1 t.toJson.membersOf).isNone) = [] := by
    rw [List.filter_eq_nil_iff]
    intro m _ hm
    obtain ⟨hname, hnone⟩ := Bool.and_eq_true_iff.mp hm
    have hname : m.1 ∈ costFields := List.contains_iff_mem.mp hname
    rw [lookup_membersOf_toJson hname] at hnone
    simp only [costFields, List.mem_cons, List.not_mem_nil, or_false] at hname
    rcases hname with hname | hname | hname <;> simp [hname, costMembers, Json.lookup] at hnone
  rw [Replacement.apply, Replacement.keeping, hextra, List.append_nil, membersOf_toJson t,
    List.map_append, List.map_append, Json.map_kept_of_avoids t.avoids_membersBefore,
    Json.map_kept_of_avoids t.avoids_membersAfter, hcost, ← List.append_assoc]
  rfl

end Transaction

end ChainIndex
