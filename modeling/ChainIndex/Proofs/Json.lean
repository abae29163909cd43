import ChainIndex.Json.Record

/-!
# Members by their names

A body is a sequence of fields, many of which are left out when they say nothing. Looking a name up
passes over the fields that have other names (`Json.lookup_append_of_avoids`), and finds an optional
text if there is one (`Json.lookup_textField`).

A field that says nothing is an empty list of members and not a member with an empty value. So no
member has a fixed place in a body, and a body is looked into by names: the two families of lemmas
say for each kind of field which names it can have, and what stands under its own.
-/

namespace ChainIndex

namespace Json

/-- No member has one of some names. -/
def Avoids (names : List String) (ms : List (String × Json)) : Prop :=
  ∀ m ∈ ms, m.1 ∉ names

variable {names : List String} {name : String} {xs : List (String × Json)}

@[simp] theorem avoids_nil : Avoids names [] :=
  List.forall_mem_nil _

@[simp] theorem avoids_cons {m : String × Json} :
    Avoids names (m :: xs) ↔ m.1 ∉ names ∧ Avoids names xs :=
  List.forall_mem_cons

@[simp] theorem avoids_append {ys : List (String × Json)} :
    Avoids names (xs ++ ys) ↔ Avoids names xs ∧ Avoids names ys :=
  List.forall_mem_append

section Fields

variable (hname : name ∉ names)
include hname

@[simp] theorem avoids_textField (value : String) : Avoids names (textField name value) := by
  unfold textField
  split
  · exact avoids_nil
  · exact avoids_cons.mpr ⟨hname, avoids_nil⟩

@[simp] theorem avoids_bytesField (value : Bytes) : Avoids names (bytesField name value) := by
  unfold bytesField
  split
  · exact avoids_nil
  · exact avoids_cons.mpr ⟨hname, avoids_nil⟩

@[simp] theorem avoids_switchField (value : Bool) : Avoids names (switchField name value) := by
  unfold switchField
  split
  · exact avoids_cons.mpr ⟨hname, avoids_nil⟩
  · exact avoids_nil

@[simp] theorem avoids_countField (value : UInt64) : Avoids names (countField name value) := by
  unfold countField
  split
  · exact avoids_nil
  · exact avoids_cons.mpr ⟨hname, avoids_nil⟩

@[simp] theorem avoids_amountField (value : Binary64) : Avoids names (amountField name value) := by
  unfold amountField
  split
  · exact avoids_nil
  · exact avoids_cons.mpr ⟨hname, avoids_nil⟩

@[simp] theorem avoids_listField {α : Type} (write : α → Json) (values : List α) :
    Avoids names (listField name write values) := by
  unfold listField
  split
  · exact avoids_nil
  · exact avoids_cons.mpr ⟨hname, avoids_nil⟩

end Fields

/-- Looking a name up passes over members that avoid it. -/
theorem lookup_append_of_avoids (h : Avoids names xs) (hname : name ∈ names)
    (ys : List (String × Json)) : lookup name (xs ++ ys) = lookup name ys := by
  induction xs with
  | nil => rfl
  | cons m rest ih =>
      obtain ⟨hm, hrest⟩ := avoids_cons.mp h
      have hne : m.1 ≠ name := fun heq => hm (heq ▸ hname)
      rw [List.cons_append, lookup, if_neg hne]
      exact ih hrest

theorem lookup_of_avoids (h : Avoids [name] xs) : lookup name xs = none := by
  have hnil := lookup_append_of_avoids h (List.mem_singleton_self name) []
  rwa [List.append_nil] at hnil

theorem lookup_append (name : String) (xs ys : List (String × Json)) :
    lookup name (xs ++ ys) = (lookup name xs).or (lookup name ys) := by
  induction xs with
  | nil => rfl
  | cons m rest ih =>
      rw [List.cons_append, lookup, lookup, ih]
      split
      · rfl
      · rfl

/-- What stands in a body for an optional text. -/
def textMember? (value : String) : Option Json :=
  if value = "" then none else some (.string value)

/-- An optional text is found under its name and under no other one. -/
theorem lookup_textField (name name' value : String) :
    lookup name (textField name' value) = if name' = name then textMember? value else none := by
  unfold textField textMember?
  by_cases hvalue : value = ""
  · rw [if_pos (String.isEmpty_iff.mpr hvalue), if_pos hvalue, ite_self]
    rfl
  · rw [if_neg (fun hempty => hvalue (String.isEmpty_iff.mp hempty)), if_neg hvalue]
    rfl

/-- A switch is found if it is on. -/
theorem lookup_switchField_self (name : String) (value : Bool) :
    lookup name (switchField name value) = if value then some (.bool true) else none := by
  cases value with
  | false => rfl
  | true => exact if_pos rfl

section Others

variable {name' : String} (h : name' ≠ name)
include h

theorem lookup_bytesField (value : Bytes) : lookup name (bytesField name' value) = none :=
  lookup_of_avoids (avoids_bytesField (by simpa using h) value)

theorem lookup_switchField (value : Bool) : lookup name (switchField name' value) = none :=
  lookup_of_avoids (avoids_switchField (by simpa using h) value)

theorem lookup_countField (value : UInt64) : lookup name (countField name' value) = none :=
  lookup_of_avoids (avoids_countField (by simpa using h) value)

theorem lookup_amountField (value : Binary64) : lookup name (amountField name' value) = none :=
  lookup_of_avoids (avoids_amountField (by simpa using h) value)

theorem lookup_listField {α : Type} (write : α → Json) (values : List α) :
    lookup name (listField name' write values) = none :=
  lookup_of_avoids (avoids_listField (by simpa using h) write values)

end Others

end Json

end ChainIndex
