import ChainIndex.Proofs.Call.Summary
import ChainIndex.Proofs.Json.Record

/-!
# Both forms of a relayed transaction say the same

A transaction is wrapped as the text of an object or part by part. Whatever it is, both forms are
read alike, and they say what the wrapped transaction says when it is read by itself, marked as
relayed (`CallReader.read_relayed`). If that is relayed again, both say nothing else, so reading
never goes deeper than one level.

Both forms lead to the same wrapped transaction, and from there on there is one proof
(`CallReader.readRelayed_of_innerOf?`). The reader of the wrapped transaction opens nothing, while
what it is compared with does; they differ on relayed transactions only, and of such a one all that
is left in the end is the mark. The object may have members in any order, and other ones among them,
so its reader is shown to see only the members that it knows.
-/

namespace ChainIndex

/-! ### Members with other names -/

namespace Json

variable {names : List String} {name : String} {m : String × Json} {ms : List (String × Json)}

/-- The members whose names are among some names. -/
def among (names : List String) (ms : List (String × Json)) : List (String × Json) :=
  ms.filter fun m => names.contains m.1

theorem among_cons_of_mem (h : names.contains m.1 = true) :
    among names (m :: ms) = m :: among names ms :=
  List.filter_cons_of_pos h

theorem among_cons_of_not_mem (h : ¬ names.contains m.1 = true) :
    among names (m :: ms) = among names ms :=
  List.filter_cons_of_neg h

/-- A name among them is given as often as before. -/
theorem any_among (hname : names.contains name = true) (ms : List (String × Json)) :
    (among names ms).any (·.1 == name) = ms.any (·.1 == name) := by
  rw [among, List.any_filter]
  congr 1
  funext m
  by_cases hm : m.1 = name
  · rw [hm, hname, Bool.true_and]
  · rw [beq_eq_false_iff_ne.mpr hm, Bool.and_false]

/-- Only members with known names can be given twice. -/
theorem areDistinct_among (names : List String) (ms : List (String × Json)) :
    areDistinct names (among names ms) = areDistinct names ms := by
  induction ms with
  | nil => rfl
  | cons m rest ih =>
      obtain ⟨k, v⟩ := m
      by_cases hk : names.contains k = true
      · rw [among_cons_of_mem hk, areDistinct, areDistinct, ih, any_among hk]
      · rw [among_cons_of_not_mem hk, areDistinct, ih, Bool.eq_false_iff.mpr hk, Bool.false_and,
          Bool.not_false, Bool.true_and]

/-- Looking a known name up passes over members with other names. -/
theorem lookup_among (hname : names.contains name = true) (ms : List (String × Json)) :
    lookup name (among names ms) = lookup name ms := by
  induction ms with
  | nil => rfl
  | cons m rest ih =>
      obtain ⟨k, v⟩ := m
      by_cases hk : names.contains k = true
      · rw [among_cons_of_mem hk, lookup, lookup, ih]
      · have hne : k ≠ name := by
          rintro rfl
          exact hk hname
        rw [among_cons_of_not_mem hk, ih, lookup, if_neg hne]

/-- Where no name is given twice, each member is found. -/
theorem lookup_of_mem {v : Json} (hnodup : (ms.map Prod.fst).Nodup) (h : (name, v) ∈ ms) :
    lookup name ms = some v := by
  induction ms with
  | nil => exact absurd h List.not_mem_nil
  | cons m rest ih =>
      obtain ⟨k, w⟩ := m
      rw [List.map_cons, List.nodup_cons] at hnodup
      rw [lookup]
      rcases List.mem_cons.mp h with heq | hrest
      · obtain ⟨rfl, rfl⟩ := Prod.mk.inj heq
        exact if_pos rfl
      · have hname : name ∈ rest.map Prod.fst := List.mem_map.mpr ⟨(name, v), hrest, rfl⟩
        have hne : k ≠ name := fun heq => hnodup.1 (heq ▸ hname)
        rw [if_neg hne]
        exact ih hnodup.2 hrest

end Json

/-! ### Wrapped transactions -/

namespace InnerTransaction

/-- The names of the parts. -/
def partNames : List String := ["receiver", "sender", "data"]

/-- The parts as members of an object, in base64. -/
def parts (inner : InnerTransaction) : List (String × Json) :=
  [("receiver", .base64Bytes inner.receiver), ("sender", .base64Bytes inner.sender),
    ("data", .base64Bytes inner.data)]

/-- A text is an object with the parts of a transaction, each of them once and in any order, among
members with other names. -/
def IsObject (inner : InnerTransaction) (text : Bytes) : Prop :=
  ∃ members, Json.ofBytes? text = some (.object members) ∧
    (Json.among partNames members).Perm inner.parts

variable {inner : InnerTransaction} {text : Bytes}

/-- What is printed for an object with the parts is such a text. -/
theorem isObject_render {members : List (String × Json)} (hexact : (Json.object members).IsExact)
    (hparts : (Json.among partNames members).Perm inner.parts) :
    inner.IsObject (Utf8.encode (Json.object members).render) :=
  ⟨members, Json.ofString?_render hexact, hparts⟩

theorem ofJson?_of_perm {members : List (String × Json)}
    (h : (Json.among partNames members).Perm inner.parts) :
    ofJson? (.object members) = some inner := by
  have hnodup : ((Json.among partNames members).map Prod.fst).Nodup :=
    (h.map Prod.fst).nodup_iff.mpr (show partNames.Nodup by decide)
  have hdistinct : Json.areDistinct partNames members = true := by
    rw [← Json.areDistinct_among]
    exact Json.areDistinct_of_nodup _ hnodup
  have hlookup : ∀ {name v}, (name, v) ∈ inner.parts → Json.lookup name members = some v := by
    intro name v hv
    have hmem := h.mem_iff.mpr hv
    rw [← Json.lookup_among (List.mem_filter.mp hmem).2]
    exact Json.lookup_of_mem hnodup hmem
  have hmembers : Json.members? partNames (.object members) = some ⟨members, false⟩ :=
    if_pos hdistinct
  have hreceiver : Json.lookup "receiver" members = some (.base64Bytes inner.receiver) :=
    hlookup (by simp [parts])
  have hsender : Json.lookup "sender" members = some (.base64Bytes inner.sender) :=
    hlookup (by simp [parts])
  have hdata : Json.lookup "data" members = some (.base64Bytes inner.data) :=
    hlookup (by simp [parts])
  rw [partNames] at hmembers
  rw [ofJson?, hmembers]
  simp only [Option.bind_eq_bind, Option.bind_some, Json.Members.defaulted, hreceiver, hsender,
    hdata, Json.base64Bytes?_base64Bytes]

theorem ofText?_of_isObject (h : inner.IsObject text) (args : List Bytes) :
    ofText? (text :: args) = some inner := by
  obtain ⟨members, hread, hparts⟩ := h
  rw [ofText?, hread, Option.bind_some, ofJson?_of_perm hparts]

end InnerTransaction

namespace Call

/-- The call that wraps the text of a transaction. -/
def relayedText (text : Bytes) : Call :=
  ⟨"relayedTx", [text]⟩

/-- The call that wraps a transaction part by part; its sender receives the call. -/
def relayedParts (inner : InnerTransaction) (nonce signature : Bytes) : Call :=
  ⟨"relayedTxV2", [inner.receiver, nonce, inner.data, signature]⟩

end Call

/-! ### One level -/

namespace CallReader

variable {r : CallReader} {call : Call} {inner : InnerTransaction} {sender receiver : Bytes}

/-- What a relayed call says of the transaction that it wraps: what the transaction says when it is
read by itself, with its receiver for the only one unless items are transferred, and nothing at all
if that is relayed again. -/
def unwrapped (r : CallReader) (inner : InnerTransaction) : CallSummary :=
  let said := r.read inner.data inner.sender inner.receiver
  if said.isRelayed then .unread
  else if isNftTransferName said.operation then { said with isRelayed := true }
  else
    { said with
      receivers := [r.addresses.encodeOrEmpty inner.receiver]
      receiverShards := [r.sharding.shardOf inner.receiver]
      isRelayed := true }

/-- A relayed call is marked as such, whatever it wraps. -/
theorem isRelayed_readRelayed (r : CallReader) (receiver : Bytes) (call : Call) :
    (r.readRelayed receiver call).isRelayed = true := by
  unfold readRelayed
  split
  · rfl
  · dsimp only
    split
    · rfl
    · split <;> rfl

/-- It makes no difference that the wrapped transaction is not opened if it is relayed again. -/
theorem readRelayed_of_innerOf? (h : innerOf? call receiver = some inner) :
    r.readRelayed receiver call = r.unwrapped inner := by
  rw [readRelayed, h, unwrapped]
  dsimp only
  -- relayed again, or with nothing to open, where both readers agree
  rcases r.read_cases inner.data inner.sender inner.receiver with
    ⟨again, -, -, hunopened, hread⟩ | ⟨said, -, hunopened, hread⟩
  · have hunread : CallSummary.unread.isRelayed = true := rfl
    rw [hunopened, hread, if_pos hunread, if_pos (isRelayed_readRelayed r inner.receiver again)]
  · rw [hunopened, hread]

theorem read_relayedParts (hsender : r.addresses.isNobody inner.sender = false)
    (nonce signature outer : Bytes) :
    r.read (Call.relayedParts inner nonce signature).toData outer inner.sender =
      r.unwrapped inner := by
  have hname : (Call.relayedParts inner nonce signature).function = "relayedTxV2" := rfl
  have hcalls : r.Calls (Call.relayedParts inner nonce signature).toData inner.sender
      (Call.relayedParts inner nonce signature) := .of_toData hname (by decide) hsender
  rw [read, readWith_of_wraps hcalls (.inr rfl)]
  exact readRelayed_of_innerOf? rfl

theorem read_relayedText {text : Bytes} (htext : inner.IsObject text)
    (hreceiver : r.addresses.isNobody receiver = false) (outer : Bytes) :
    r.read (Call.relayedText text).toData outer receiver = r.unwrapped inner := by
  have hname : (Call.relayedText text).function = "relayedTx" := rfl
  have hcalls : r.Calls (Call.relayedText text).toData receiver (Call.relayedText text) :=
    .of_toData hname (by decide) hreceiver
  rw [read, readWith_of_wraps hcalls (.inl rfl)]
  exact readRelayed_of_innerOf? (InnerTransaction.ofText?_of_isObject htext [])

/-! ### Main result -/

/-- A transaction that is wrapped part by part, and received by its sender, says what the
transaction says when it is read by itself, marked as relayed; and one that is wrapped as the text
of an object says the same. -/
theorem read_relayed (r : CallReader) {inner : InnerTransaction}
    (hsender : r.addresses.isNobody inner.sender = false) (nonce signature outer : Bytes) :
    r.read (Call.relayedParts inner nonce signature).toData outer inner.sender =
      r.unwrapped inner ∧
    ∀ text, inner.IsObject text → ∀ sender receiver, r.addresses.isNobody receiver = false →
      r.read (Call.relayedText text).toData sender receiver =
        r.read (Call.relayedParts inner nonce signature).toData outer inner.sender := by
  have hparts := read_relayedParts hsender nonce signature outer
  refine ⟨hparts, fun text htext sender receiver hreceiver => ?_⟩
  rw [hparts]
  exact read_relayedText htext hreceiver sender

/-- A transfer of tokens that is wrapped in both ways, once among other members. -/
theorem read_relayed_of_token_transfer :
    let r : CallReader := ⟨⟨.hex, "", 1, by decide⟩, ⟨1, by decide⟩⟩
    let inner : InnerTransaction :=
      { receiver := [2], sender := [1], data := Call.toData ⟨"ESDTTransfer", [[0x41], [5]]⟩ }
    let text := Utf8.encode
      (Json.object (("nonce", .nat 7) :: inner.parts.reverse ++ [("value", .null)])).render
    let said : CallSummary :=
      { operation := "ESDTTransfer"
        values := ["5"]
        tokens := ["A"]
        receivers := ["02"]
        receiverShards := [0]
        isRelayed := true }
    r.read (Call.relayedParts inner [7] [9]).toData [3] [1] = said ∧
      r.read (Call.relayedText text).toData [4] [5] = said := by
  intro r inner text said
  have htext : inner.IsObject text := by
    refine InnerTransaction.isObject_render (.object ?_) (List.reverse_perm inner.parts)
    simp [InnerTransaction.parts, Json.IsExact.null, Json.IsExact.int, Json.nat]
  have hsender : r.addresses.isNobody inner.sender = false := by decide
  have hread := read_relayed r hsender [7] [9] [3]
  have hsaid : r.unwrapped inner = said := by decide +kernel
  rw [hsaid] at hread
  exact ⟨hread.1, (hread.2 text htext [4] [5] (by decide)).trans hread.1⟩

end CallReader

end ChainIndex
