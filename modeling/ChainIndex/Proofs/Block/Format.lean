import ChainIndex.Block.Format
import ChainIndex.Proofs.Json.Record

/-!
# A block is read as it was written

Reading undoes writing for every type of a block, and so for the whole block, by way of its text
(`Block.ofText?_render`). The types stand in the order in which they are built on each other.

Each type has the same two facts, and they have the same proofs: its written form has an exact text,
and this form is read as the value. Both are rules for `simp`, so that the fields of a type are
settled by the rules of their own types. Reading goes field by field, and `bind_eq_some_iff` is
tried on the outside first, or `simp` would look at all later fields once for each field.
-/

namespace ChainIndex

open Json Json.Members

/-! ### Names of choices -/

@[simp] theorem ProcessingType.ofName?_name (p : ProcessingType) : ofName? p.name = some p := by
  cases p <;> rfl

@[simp] theorem ConstructionState.ofName?_name (c : ConstructionState) :
    ofName? c.name = some c := by
  cases c <;> rfl

@[simp] theorem MiniBlockType.ofName?_name (t : MiniBlockType) : ofName? t.name = some t := by
  cases t <;> rfl

/-! ### Header and body -/

namespace MiniBlockHeader

@[simp] theorem isExact_toJson (h : MiniBlockHeader) : h.toJson.IsExact :=
  .object (by simp)

@[simp] theorem ofJson?_toJson (h : MiniBlockHeader) : ofJson? h.toJson = some h := by
  rw [toJson, ofJson?, members?_object _ (by simp)]
  simp -implicitDefEqProofs [↓bind_eq_some_iff, defaulted, lookup]

end MiniBlockHeader

namespace Header

@[simp] theorem isExact_toJson (h : Header) : h.toJson.IsExact :=
  .object (by simp)

@[simp] theorem ofJson?_toJson (h : Header) : ofJson? h.toJson = some h := by
  rw [toJson, ofJson?, members?_object _ (by simp)]
  simp -implicitDefEqProofs [↓bind_eq_some_iff, required, defaulted, lookup]

end Header

namespace MiniBlock

@[simp] theorem isExact_toJson (b : MiniBlock) : b.toJson.IsExact :=
  .object (by simp)

@[simp] theorem ofJson?_toJson (b : MiniBlock) : ofJson? b.toJson = some b := by
  rw [toJson, ofJson?, members?_object _ (by simp)]
  simp -implicitDefEqProofs [↓bind_eq_some_iff, required, defaulted, lookup]

@[simp] theorem isExact_bodyToJson (bs : List MiniBlock) : (bodyToJson bs).IsExact :=
  .object (by simp)

@[simp] theorem listOfBody?_bodyToJson (bs : List MiniBlock) :
    listOfBody? (bodyToJson bs) = some bs := by
  rw [bodyToJson, listOfBody?, members?_object _ (by simp)]
  simp -implicitDefEqProofs [↓bind_eq_some_iff, defaulted, lookup]

end MiniBlock

/-! ### Pool -/

namespace FeeInfo

@[simp] theorem isExact_toJson (f : FeeInfo) : f.toJson.IsExact :=
  .object (by simp)

@[simp] theorem ofJson?_toJson (f : FeeInfo) : ofJson? f.toJson = some f := by
  rw [toJson, ofJson?, members?_object _ (by simp)]
  simp -implicitDefEqProofs [↓bind_eq_some_iff, required, defaulted, lookup]

end FeeInfo

namespace TxPayload

@[simp] theorem isExact_toJson (t : TxPayload) : t.toJson.IsExact :=
  .object (by simp)

@[simp] theorem ofJson?_toJson (t : TxPayload) : ofJson? t.toJson = some t := by
  rw [toJson, ofJson?, members?_object _ (by simp)]
  simp -implicitDefEqProofs [↓bind_eq_some_iff, defaulted, lookup]

end TxPayload

namespace TxEntry

@[simp] theorem isExact_toJson (e : TxEntry) : e.toJson.IsExact :=
  .object (by simp)

@[simp] theorem ofJson?_toJson (e : TxEntry) : ofJson? e.toJson = some e := by
  rw [toJson, ofJson?, members?_object _ (by simp)]
  simp -implicitDefEqProofs [↓bind_eq_some_iff, required, defaulted, Members.optional, lookup,
    nullable?_optional FeeInfo.toJson FeeInfo.ofJson? rfl FeeInfo.ofJson?_toJson]

end TxEntry

namespace ResultPayload

@[simp] theorem isExact_toJson (r : ResultPayload) : r.toJson.IsExact :=
  .object (by simp)

@[simp] theorem ofJson?_toJson (r : ResultPayload) : ofJson? r.toJson = some r := by
  rw [toJson, ofJson?, members?_object _ (by simp)]
  simp -implicitDefEqProofs [↓bind_eq_some_iff, defaulted, lookup,
    nullable?_optional Json.string string? rfl string?_string]

end ResultPayload

namespace ResultEntry

@[simp] theorem isExact_toJson (e : ResultEntry) : e.toJson.IsExact :=
  .object (by simp)

@[simp] theorem ofJson?_toJson (e : ResultEntry) : ofJson? e.toJson = some e := by
  rw [toJson, ofJson?, members?_object _ (by simp)]
  simp -implicitDefEqProofs [↓bind_eq_some_iff, required, defaulted, Members.optional, lookup,
    nullable?_optional FeeInfo.toJson FeeInfo.ofJson? rfl FeeInfo.ofJson?_toJson]

end ResultEntry

namespace RewardPayload

@[simp] theorem isExact_toJson (r : RewardPayload) : r.toJson.IsExact :=
  .object (by simp)

@[simp] theorem ofJson?_toJson (r : RewardPayload) : ofJson? r.toJson = some r := by
  rw [toJson, ofJson?, members?_object _ (by simp)]
  simp -implicitDefEqProofs [↓bind_eq_some_iff, required, Members.optional, lookup,
    nullable?_of_ne_null hexBytes? (hexBytes_ne_null _)]

end RewardPayload

namespace RewardEntry

@[simp] theorem isExact_toJson (e : RewardEntry) : e.toJson.IsExact :=
  .object (by simp)

@[simp] theorem ofJson?_toJson (e : RewardEntry) : ofJson? e.toJson = some e := by
  rw [toJson, ofJson?, members?_object _ (by simp)]
  simp -implicitDefEqProofs [↓bind_eq_some_iff, required, defaulted, lookup]

end RewardEntry

namespace ReceiptEntry

@[simp] theorem isExact_toJson (e : ReceiptEntry) : e.toJson.IsExact :=
  .object (by simp)

@[simp] theorem ofJson?_toJson (e : ReceiptEntry) : ofJson? e.toJson = some e := by
  rw [toJson, ofJson?, members?_object _ (by simp)]
  simp -implicitDefEqProofs [↓bind_eq_some_iff, defaulted, lookup]

end ReceiptEntry

namespace Event

@[simp] theorem isExact_toJson (e : Event) : e.toJson.IsExact :=
  .object (by simp)

@[simp] theorem ofJson?_toJson (e : Event) : ofJson? e.toJson = some e := by
  rw [toJson, ofJson?, members?_object _ (by simp)]
  simp -implicitDefEqProofs [↓bind_eq_some_iff, defaulted, lookup]

end Event

namespace Log

@[simp] theorem isExact_toJson (l : Log) : l.toJson.IsExact :=
  .object (by simp)

@[simp] theorem ofJson?_toJson (l : Log) : ofJson? l.toJson = some l := by
  rw [toJson, ofJson?, members?_object _ (by simp)]
  simp -implicitDefEqProofs [↓bind_eq_some_iff, defaulted, lookup]

end Log

namespace LogEntry

@[simp] theorem isExact_toJson (e : LogEntry) : e.toJson.IsExact :=
  .object (by simp)

@[simp] theorem ofJson?_toJson (e : LogEntry) : ofJson? e.toJson = some e := by
  rw [toJson, ofJson?, members?_object _ (by simp)]
  simp -implicitDefEqProofs [↓bind_eq_some_iff, required, lookup]

end LogEntry

namespace Pool

@[simp] theorem isExact_toJson (p : Pool) : p.toJson.IsExact :=
  .object (by simp)

@[simp] theorem ofJson?_toJson (p : Pool) : ofJson? p.toJson = some p := by
  rw [toJson, ofJson?, members?_object _ (by simp)]
  simp -implicitDefEqProofs [↓bind_eq_some_iff, defaulted, lookup]

end Pool

/-! ### Accounts -/

namespace RawMetadata

@[simp] theorem isExact_toJson (d : RawMetadata) : d.toJson.IsExact :=
  .object (by simp)

@[simp] theorem ofJson?_toJson (d : RawMetadata) : ofJson? d.toJson = some d := by
  rw [toJson, ofJson?, members?_object _ (by simp)]
  simp -implicitDefEqProofs [↓bind_eq_some_iff, defaulted, lookup]

end RawMetadata

namespace HoldingDetails

@[simp] theorem isExact_toJson (d : HoldingDetails) : d.toJson.IsExact :=
  .object (by simp)

@[simp] theorem ofJson?_toJson (d : HoldingDetails) : ofJson? d.toJson = some d := by
  rw [toJson, ofJson?, members?_object _ (by simp)]
  -- the switch is the one that is written, so there is no need to try both
  simp -implicitDefEqProofs [↓bind_eq_some_iff, -Bool.exists_bool, defaulted, lookup]

end HoldingDetails

namespace Holding

@[simp] theorem isExact_toJson (h : Holding) : h.toJson.IsExact :=
  .object (by simp)

@[simp] theorem ofJson?_toJson (h : Holding) : ofJson? h.toJson = some h := by
  rw [toJson, ofJson?, members?_object _ (by simp)]
  simp -implicitDefEqProofs [↓bind_eq_some_iff, required, defaulted, Members.optional, lookup,
    nullable?_optional RawMetadata.toJson RawMetadata.ofJson? rfl RawMetadata.ofJson?_toJson,
    nullable?_optional HoldingDetails.toJson HoldingDetails.ofJson? rfl
      HoldingDetails.ofJson?_toJson]

end Holding

namespace AccountDetails

@[simp] theorem isExact_toJson (d : AccountDetails) : d.toJson.IsExact :=
  .object (by simp)

@[simp] theorem ofJson?_toJson (d : AccountDetails) : ofJson? d.toJson = some d := by
  rw [toJson, ofJson?, members?_object _ (by simp)]
  simp -implicitDefEqProofs [↓bind_eq_some_iff, -Bool.exists_bool, defaulted, lookup]

end AccountDetails

namespace AlteredAccount

@[simp] theorem isExact_toJson (a : AlteredAccount) : a.toJson.IsExact :=
  .object (by simp)

@[simp] theorem ofJson?_toJson (a : AlteredAccount) : ofJson? a.toJson = some a := by
  rw [toJson, ofJson?, members?_object _ (by simp)]
  simp -implicitDefEqProofs [↓bind_eq_some_iff, required, defaulted, Members.optional, lookup,
    nullable?_optional AccountDetails.toJson AccountDetails.ofJson? rfl
      AccountDetails.ofJson?_toJson]

end AlteredAccount

/-! ### The whole block -/

namespace Block

@[simp] theorem isExact_toJson (b : Block) : b.toJson.IsExact :=
  .object (by simp)

@[simp] theorem ofJson?_toJson (b : Block) : ofJson? b.toJson = some b := by
  rw [toJson, ofJson?, members?_object _ (by simp)]
  simp -implicitDefEqProofs [↓bind_eq_some_iff, required, defaulted, Members.optional, lookup,
    nullable?_optional Header.toJson Header.ofJson? rfl Header.ofJson?_toJson,
    nullable?_optional Pool.toJson Pool.ofJson? rfl Pool.ofJson?_toJson]

/-- The text that is written for a block is read as that block. -/
theorem ofText?_render (b : Block) : ofText? b.toJson.render = some b := by
  rw [ofText?, ofString?_render b.isExact_toJson, Option.bind_some, ofJson?_toJson]

end Block

end ChainIndex
