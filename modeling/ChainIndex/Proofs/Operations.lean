import ChainIndex.Operations
import ChainIndex.Proofs.Json
import ChainIndex.Search.Transactions

/-!
# What an operation shows more

The body of an operation is that of its transaction with a type more
(`Transaction.adds_asOperation`), or that of its result with a type, a status and at most a mark
more (`ContractResult.adds_asOperation`), as long as the record itself does not show these. All
other members are alike and in the same order. Nor does becoming an operation change what is done to
the document of a transaction.

Bodies are written member by member in a fixed order, and the added members stand somewhere in the
middle. So a body is cut where they are put in: `Json.adds_of_parts` takes three parts of a body and
two places between them. That no part has a member with an added name is a closed fact about the
names of fields, found by going through them (`Json.Avoids`).
-/

namespace ChainIndex

/-! ### Members that are added -/

namespace Json

/-- One object has some members more than another one; all others are alike and in the same order,
and none of them has the name of an added one. -/
def Adds (added : List (String × Json)) (j j' : Json) : Prop :=
  ∃ ms ms', j = .object ms ∧ j' = .object ms' ∧
    (ms'.filter fun m => (added.map Prod.fst).contains m.1) = added ∧
    (ms'.filter fun m => !(added.map Prod.fst).contains m.1) = ms

variable {names : List String} {xs ys zs : List (String × Json)}

theorem filter_of_avoids (h : Avoids names xs) :
    (xs.filter fun m => names.contains m.1) = [] := by
  rw [List.filter_eq_nil_iff]
  exact fun m hm hname => h m hm (List.contains_iff_mem.mp hname)

theorem filter_not_of_avoids (h : Avoids names xs) :
    (xs.filter fun m => !names.contains m.1) = xs := by
  rw [List.filter_eq_self]
  intro m hm
  have hname : names.contains m.1 = false :=
    Bool.eq_false_iff.mpr fun hname => h m hm (List.contains_iff_mem.mp hname)
  rw [hname]
  rfl

theorem Adds.refl (ms : List (String × Json)) : Adds [] (.object ms) (.object ms) := by
  have havoids : Avoids ([] : List (String × Json)).unzip.1 ms := fun _ _ => List.not_mem_nil
  exact ⟨ms, ms, rfl, rfl, filter_of_avoids havoids, filter_not_of_avoids havoids⟩

/-- Members are added in two places. Both of them avoid the names of all added members, not only of
those put next to them, since the added ones are picked out by their names. -/
theorem adds_of_parts (first second : List (String × Json))
    (hxs : Avoids ((first ++ second).map Prod.fst) xs)
    (hys : Avoids ((first ++ second).map Prod.fst) ys)
    (hzs : Avoids ((first ++ second).map Prod.fst) zs) :
    Adds (first ++ second) (.object (xs ++ ys ++ zs))
      (.object (xs ++ first ++ ys ++ second ++ zs)) := by
  have hadded : ∀ part : List (String × Json), part ⊆ first ++ second →
      (part.filter fun m => ((first ++ second).map Prod.fst).contains m.1) = part ∧
      (part.filter fun m => !((first ++ second).map Prod.fst).contains m.1) = [] := by
    intro part hpart
    have hnames : ∀ m ∈ part, ((first ++ second).map Prod.fst).contains m.1 = true :=
      fun m hm => List.contains_iff_mem.mpr (List.mem_map_of_mem (hpart hm))
    refine ⟨List.filter_eq_self.mpr hnames, List.filter_eq_nil_iff.mpr fun m hm => ?_⟩
    rw [hnames m hm]
    exact Bool.false_ne_true
  obtain ⟨hfirst, hfirst'⟩ := hadded first (List.subset_append_left _ _)
  obtain ⟨hsecond, hsecond'⟩ := hadded second (List.subset_append_right _ _)
  refine ⟨_, _, rfl, rfl, ?_, ?_⟩
  · simp only [List.filter_append, filter_of_avoids hxs, filter_of_avoids hys,
      filter_of_avoids hzs, hfirst, hsecond, List.nil_append, List.append_nil]
  · simp only [List.filter_append, filter_not_of_avoids hxs, filter_not_of_avoids hys,
      filter_not_of_avoids hzs, hfirst', hsecond', List.append_nil]

end Json

/-! ### Transactions -/

namespace Transaction

/-- What stands in the body of a transaction in front of its type. -/
def membersBeforeType (t : Transaction) : List (String × Json) :=
  t.membersBefore ++ t.costMembers
  ++ Json.textField "initialPaidFee" t.initialPaidFee
  ++ [("data", Json.base64Bytes t.data), ("signature", Json.string t.signature),
    ("timestamp", Json.uint64 t.timestamp)]
  ++ Json.countField "timestampMs" t.timestampMs
  ++ [("status", Json.string t.status.name), ("searchOrder", Json.uint32 t.searchOrder)]
  ++ Json.bytesField "senderUserName" t.senderUserName
  ++ Json.bytesField "receiverUserName" t.receiverUserName
  ++ Json.switchField "hasScResults" t.hasResults
  ++ Json.switchField "isScCall" t.isContractCall
  ++ Json.switchField "hasOperations" t.hasOperations
  ++ Json.switchField "hasLogs" t.hasLogs
  ++ Json.listField "tokens" .string t.tokens
  ++ Json.listField "esdtValues" .string t.tokenValues
  ++ Json.listField "esdtValuesNum" .float t.tokenValuesNum
  ++ Json.listField "receivers" .string t.receivers
  ++ Json.listField "receiversShardIDs" .uint32 t.receiverShards

/-- What stands in the body of a transaction behind its type. -/
def membersBehindType (t : Transaction) : List (String × Json) :=
  Json.textField "operation" t.operation
  ++ Json.textField "function" t.function
  ++ Json.switchField "isRelayed" t.isRelayed
  ++ Json.countField "version" t.version.toUInt64
  ++ Json.switchField "errorEvent" t.errorEvent
  ++ Json.switchField "completedEvent" t.completedEvent

theorem toJson_eq_around_type (t : Transaction) :
    t.toJson =
      .object (t.membersBeforeType ++ (Json.textField "type" t.type ++ t.membersBehindType)) := by
  unfold toJson membersAfter membersBeforeType membersBehindType
  simp only [List.append_assoc]

theorem avoids_membersBeforeType (t : Transaction) : Json.Avoids ["type"] t.membersBeforeType := by
  unfold membersBeforeType membersBefore costMembers
  simp

theorem avoids_membersBehindType (t : Transaction) : Json.Avoids ["type"] t.membersBehindType := by
  unfold membersBehindType
  simp

/-- An operation shows its type more than the transaction. -/
theorem adds_asOperation {t : Transaction} (h : t.type = "") :
    Json.Adds [("type", .string "normal")] t.toJson t.asOperation.toJson := by
  have hparts := Json.adds_of_parts [("type", .string "normal")] [] t.avoids_membersBeforeType
    t.avoids_membersBehindType Json.avoids_nil
  rw [List.append_nil, List.append_nil, List.append_nil, List.append_nil, List.append_assoc]
    at hparts
  rw [toJson_eq_around_type, toJson_eq_around_type, h]
  exact hparts

/-- Becoming an operation changes nothing of what is done to the document but the body. -/
theorem action_asOperation (self : UInt32) (t : Transaction) :
    (∃ script, t.action self = .update script t.toJson ∧
      t.asOperation.action self = .update script t.asOperation.toJson) ∨
    (t.action self = .put t.toJson ∧ t.asOperation.action self = .put t.asOperation.toJson) := by
  have hleaves : t.asOperation.leaves self = t.leaves self := rfl
  have hplain : t.asOperation.isPlainTokenTransfer = t.isPlainTokenTransfer := rfl
  have hinside : t.asOperation.transfersItemsInside = t.transfersItemsInside := rfl
  have harrives : t.asOperation.arrives self = t.arrives self := rfl
  unfold action
  rw [hleaves, hplain, hinside, harrives]
  split
  · split
    · exact .inl ⟨_, rfl, rfl⟩
    · exact .inl ⟨_, rfl, rfl⟩
  · split
    · exact .inl ⟨_, rfl, rfl⟩
    · split
      · exact .inl ⟨_, rfl, rfl⟩
      · exact .inr ⟨rfl, rfl⟩

end Transaction

/-! ### Results -/

namespace ContractResult

/-- What stands in the body of a result in front of its type. -/
def membersBeforeType (r : ContractResult) : List (String × Json) :=
  Json.textField "miniBlockHash" r.miniBlockHash
  ++ [("nonce", Json.uint64 r.nonce), ("gasLimit", Json.uint64 r.gasLimit),
    ("gasPrice", Json.uint64 r.gasPrice), ("value", Json.string r.value),
    ("valueNum", Json.float r.valueNum), ("sender", Json.string r.sender),
    ("receiver", Json.string r.receiver),
    ("senderShard", Json.uint32 r.senderShard), ("receiverShard", Json.uint32 r.receiverShard)]
  ++ Json.textField "relayerAddr" r.relayer
  ++ Json.textField "relayedValue" r.relayedValue
  ++ Json.textField "code" r.code
  ++ Json.bytesField "data" r.data
  ++ [("prevTxHash", Json.string r.previousHash), ("originalTxHash", Json.string r.originHash),
    ("callType", Json.string r.callType)]
  ++ Json.bytesField "codeMetaData" r.codeMetadata
  ++ Json.textField "returnMessage" r.returnMessage
  ++ [("timestamp", Json.uint64 r.timestamp)]
  ++ Json.countField "timestampMs" r.timestampMs
  ++ Json.switchField "hasOperations" r.hasOperations
  ++ Json.switchField "hasLogs" r.hasLogs

/-- The type and the status in the body of a result. -/
def typeMembers (r : ContractResult) : List (String × Json) :=
  Json.textField "type" r.type
  ++ (match r.status with
    | none => []
    | some status => [("status", .string status.name)])

/-- What stands in the body of a result between its status and its mark. -/
def membersBehindStatus (r : ContractResult) : List (String × Json) :=
  Json.listField "tokens" .string r.tokens
  ++ Json.listField "esdtValues" .string r.tokenValues
  ++ Json.listField "esdtValuesNum" .float r.tokenValuesNum
  ++ Json.listField "receivers" .string r.receivers
  ++ Json.listField "receiversShardIDs" .uint32 r.receiverShards
  ++ Json.textField "operation" r.operation
  ++ Json.textField "function" r.function
  ++ Json.switchField "isRelayed" r.isRelayed

theorem toJson_eq_around_type (r : ContractResult) :
    r.toJson = .object (r.membersBeforeType ++ (r.typeMembers ++ (r.membersBehindStatus ++
      (Json.switchField "canBeIgnored" r.canBeIgnored ++
        Json.textField "originalSender" r.originSender)))) := by
  unfold toJson membersBeforeType typeMembers membersBehindStatus
  cases r.status with
  | none => simp only [List.append_assoc]
  | some status => simp only [List.append_assoc]

/-- The names of the members that an operation shows more than a result. -/
def operationFields : List String :=
  ["type", "status", "canBeIgnored"]

theorem avoids_membersBeforeType (r : ContractResult) :
    Json.Avoids operationFields r.membersBeforeType := by
  unfold membersBeforeType
  simp [operationFields]

theorem avoids_membersBehindStatus (r : ContractResult) :
    Json.Avoids operationFields r.membersBehindStatus := by
  unfold membersBehindStatus
  simp [operationFields]

/-- What an operation shows more than its result. -/
def operationMembers (self receiver : UInt32) (ignored : Bool) : List (String × Json) :=
  [("type", Json.string "unsigned"),
    ("status", Json.string (if receiver = self then "success" else "pending"))]
  ++ Json.switchField "canBeIgnored" ignored

theorem map_operationMembers_subset (self receiver : UInt32) (ignored : Bool) :
    (operationMembers self receiver ignored).map Prod.fst ⊆ operationFields := by
  cases ignored with
  | false =>
      show ["type", "status"] ⊆ operationFields
      decide
  | true => exact List.Subset.refl operationFields

/-- An operation shows its type, its status and at most a mark more than the result. -/
theorem adds_asOperation {r : ContractResult} (htype : r.type = "") (hstatus : r.status = none)
    (hignored : r.canBeIgnored = false) (self : UInt32) :
    Json.Adds (operationMembers self r.receiverShard r.repeatsTransaction) r.toJson
      (r.asOperation self).toJson := by
  have hname : (arrivalStatus self r.receiverShard).name =
      if r.receiverShard = self then "success" else "pending" := by
    rw [arrivalStatus]
    by_cases hhere : self = r.receiverShard
    · rw [if_pos hhere, if_pos hhere.symm]
      rfl
    · rw [if_neg hhere, if_neg (Ne.symm hhere)]
      rfl
  -- without the mark its name is not among those added, and a part that avoids three avoids two
  have havoids : ∀ {ms : List (String × Json)}, Json.Avoids operationFields ms →
      Json.Avoids ((operationMembers self r.receiverShard r.repeatsTransaction).map Prod.fst) ms :=
    fun hms m hm hmem => hms m hm (map_operationMembers_subset _ _ _ hmem)
  have horigin : Json.Avoids operationFields (Json.textField "originalSender" r.originSender) :=
    Json.avoids_textField (by decide) _
  have hparts := Json.adds_of_parts _ _ (havoids r.avoids_membersBeforeType)
    (havoids r.avoids_membersBehindStatus) (havoids horigin)
  have hplain : r.typeMembers = [] := by rw [typeMembers, htype, hstatus]; rfl
  have htyped : (r.asOperation self).typeMembers = [("type", .string "unsigned"),
      ("status", .string (if r.receiverShard = self then "success" else "pending"))] := by
    rw [← hname]
    rfl
  rw [toJson_eq_around_type, toJson_eq_around_type, hplain, hignored, htyped]
  simp only [List.append_assoc] at hparts
  exact hparts

end ContractResult

end ChainIndex
