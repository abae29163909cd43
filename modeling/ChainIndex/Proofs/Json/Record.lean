import ChainIndex.Json.Record
import ChainIndex.Proofs.Dict
import ChainIndex.Proofs.Json.Rendering
import ChainIndex.Proofs.Text.Base64
import ChainIndex.Proofs.Text.Hex

/-!
# Fields are read as they are written

For each kind of field there is one lemma that its written form has an exact text and one that this
form is read as the value. Where a container is written, both hold if they hold of what is in it.
The members of a record are found by their names, which are all different
(`Json.members?_object`).

The lemmas are rules for `simp`: the two facts about a record type follow from those about the types
of its fields, so a type that gets another field needs no other proof. Only a field that may be
absent asks for more (`Json.nullable?_optional`): its reader must not take `null` for a value, or
what is absent and what is written as `null` would be read alike.
-/

namespace ChainIndex.Json

variable {α : Type}

/-! ### Scalars -/

@[simp] theorem isExact_string (s : String) : (Json.string s).IsExact :=
  .string s

@[simp] theorem isExact_bool (b : Bool) : (Json.bool b).IsExact :=
  .bool b

@[simp] theorem isExact_uint64 (n : UInt64) : (uint64 n).IsExact :=
  .int _

@[simp] theorem isExact_uint32 (n : UInt32) : (uint32 n).IsExact :=
  .int _

@[simp] theorem isExact_int32 (n : Int32) : (int32 n).IsExact :=
  .int _

@[simp] theorem isExact_hexBytes (bs : Bytes) : (hexBytes bs).IsExact :=
  .string _

@[simp] theorem isExact_base64Bytes (bs : Bytes) : (base64Bytes bs).IsExact :=
  .string _

@[simp] theorem string?_string (s : String) : string? (.string s) = some s :=
  rfl

@[simp] theorem bool?_bool (b : Bool) : bool? (.bool b) = some b :=
  rfl

@[simp] theorem choice?_string (s : String) : choice? (.string s) = some s :=
  rfl

@[simp] theorem uint64?_uint64 (n : UInt64) : uint64? (uint64 n) = some n := by
  have hlt := n.toNat_lt
  have hrange : 0 ≤ Int.ofNat n.toNat ∧ Int.ofNat n.toNat < 0x10000000000000000 := by
    rw [Int.ofNat_eq_natCast]
    omega
  rw [uint64, nat, uint64?, if_pos hrange, Int.ofNat_eq_natCast, Int.toNat_natCast,
    UInt64.ofNat_toNat]

@[simp] theorem uint32?_uint32 (n : UInt32) : uint32? (uint32 n) = some n := by
  have hlt := n.toNat_lt
  have hrange : 0 ≤ Int.ofNat n.toNat ∧ Int.ofNat n.toNat < 0x100000000 := by
    rw [Int.ofNat_eq_natCast]
    omega
  rw [uint32, nat, uint32?, if_pos hrange, Int.ofNat_eq_natCast, Int.toNat_natCast,
    UInt32.ofNat_toNat]

@[simp] theorem int32?_int32 (n : Int32) : int32? (int32 n) = some n := by
  have hrange : -0x80000000 ≤ n.toInt ∧ n.toInt < 0x80000000 := ⟨n.le_toInt, n.toInt_lt⟩
  rw [int32, int32?, if_pos hrange, Int32.ofInt_toInt]

@[simp] theorem hexBytes?_hexBytes (bs : Bytes) : hexBytes? (hexBytes bs) = some bs := by
  rw [hexBytes, hexBytes?, Hex.decodeText_encode]
  rfl

theorem hexBytes_ne_null (bs : Bytes) : hexBytes bs ≠ .null :=
  Json.noConfusion

@[simp] theorem base64Bytes?_base64Bytes (bs : Bytes) :
    base64Bytes? (base64Bytes bs) = some bs := by
  rw [base64Bytes, base64Bytes?, Base64.decode?_encode]

/-! ### Containers -/

section Containers

variable {write : α → Json} {read : Json → Option α}

@[simp] theorem isExact_list (h : ∀ a, (write a).IsExact) (as : List α) :
    (list write as).IsExact :=
  .array (List.forall_mem_map.mpr fun a _ => h a)

@[simp] theorem isExact_dict (h : ∀ a, (write a).IsExact) (d : Dict α) : (dict write d).IsExact :=
  .object (List.forall_mem_map.mpr fun e _ => h e.2)

@[simp] theorem isExact_optional (h : ∀ a, (write a).IsExact) (a : Option α) :
    (optional write a).IsExact := by
  cases a with
  | none => exact .null
  | some a => exact h a

variable (h : ∀ a, read (write a) = some a)
include h

@[simp] theorem list?_list (as : List α) : list? read (list write as) = some as := by
  rw [list, list?, mapM_map_eq_some write read h]

@[simp] theorem dict?_dict (d : Dict α) : dict? read (dict write d) = some d := by
  have hentries : (d.entries.map fun e => (e.1, write e.2)).mapM
      (fun m => (read m.2).map fun a => (m.1, a)) = some d.entries :=
    mapM_map_eq_some (fun e => (e.1, write e.2)) _ (fun e => by rw [h]; rfl) d.entries
  rw [dict, dict?, hentries, Option.map_some, Dict.ofList_entries]

end Containers

theorem nullable?_of_ne_null (read : Json → Option α) {v : Json} (h : v ≠ .null) :
    nullable? read v = (read v).map some := by
  rw [nullable?]
  exact h

/-- A value that may be absent, when its reader does not take `null` for a value. -/
theorem nullable?_optional (write : α → Json) (read : Json → Option α) (hnull : read .null = none)
    (h : ∀ a, read (write a) = some a) (a : Option α) :
    nullable? read (optional write a) = some a := by
  cases a with
  | none => rfl
  | some a =>
      have hne : write a ≠ .null := by
        intro heq
        have hread := h a
        rw [heq, hnull] at hread
        cases hread
      rw [optional, nullable?_of_ne_null read hne, h, Option.map_some]

/-! ### Members -/

/-- A reader of several fields succeeds if it reads the first one and then goes on. This is the
library's lemma for the `do` notation in which readers are written, where `simp` sees no `bind`. -/
theorem bind_eq_some_iff {β : Type} {x : Option α} {f : α → Option β} {b : β} :
    (x >>= f) = some b ↔ ∃ a, x = some a ∧ f a = some b :=
  Option.bind_eq_some_iff

theorem areDistinct_of_nodup (names : List String) {ms : List (String × Json)}
    (h : (ms.map Prod.fst).Nodup) : areDistinct names ms = true := by
  induction ms with
  | nil => rfl
  | cons m rest ih =>
      obtain ⟨k, v⟩ := m
      rw [List.map_cons, List.nodup_cons] at h
      have hnew : rest.any (·.1 == k) = false := by
        rw [List.any_eq_false]
        intro m hm heq
        exact h.1 (List.mem_map.mpr ⟨m, hm, beq_iff_eq.mp heq⟩)
      rw [areDistinct, hnew, Bool.and_false, Bool.not_false, Bool.true_and]
      exact ih h.2

/-- An object with distinct names is a record with these members. -/
theorem members?_object (names : List String) {ms : List (String × Json)}
    (h : (ms.map Prod.fst).Nodup) : members? names (.object ms) = some ⟨ms, false⟩ := by
  rw [members?, if_pos (areDistinct_of_nodup names h)]

end ChainIndex.Json
