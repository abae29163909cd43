import ChainIndex.Call.Summary
import ChainIndex.Proofs.Positional.Network
import ChainIndex.Proofs.Positional.Text

/-!
# Calls by position

The arguments of a call are looked at by position after a look at how many there are. A transfer of
many items says itself how many arguments it has. Three times the number that it gives may be more
than a counter shows, and then there are no such arguments; so the only condition under which the
summary is that of the library is that a counter can count the arguments that there are
(`read_succeeds`).

Most readers agree with their namesakes outright, so their theorems are equations, and `simp` knows
them. Those that may come upon a transfer of many items succeed in any case, and agree under the
condition: it stands inside of `Succeeds`, not in front, so that reading goes right also for data
that no counter could measure. It is passed upwards from arguments to data, which has at most as
many arguments as bytes, and once into the transaction that a relayed call wraps.
-/

namespace ChainIndex.Positional

/-! ### Transfers -/

/-- The transfer of one item to a destination: token, nonce, value, and perhaps a function. -/
def ofItemArgs (args : List Bytes) (destination : Bytes) (function : Nat) :
    Except Misread Transfers := do
  let token ← get args 0
  let nonce ← get args 1
  let value ← get args 2
  return ⟨destination, Transfers.functionAt args function, [TokenTransfer.ofArgs token nonce value]⟩

/-- The transfer of one item. The destination is an argument if the owner sends. -/
def ofNftArgs? (args : List Bytes) (sender receiver : Bytes) :
    Except Misread (Option Transfers) := do
  if sender = receiver then
    match args[3]? with
    | none => return none
    | some destination => return some (← ofItemArgs args destination 4)
  else if args.length < 3 then return none
  else return some (← ofItemArgs args receiver 3)

@[simp]
theorem ofNftArgs?_eq (args : List Bytes) (sender receiver : Bytes) :
    ofNftArgs? args sender receiver = .ok (Transfers.ofNftArgs? args sender receiver) := by
  unfold ofNftArgs? Transfers.ofNftArgs?
  -- four arguments matter at most, so lists are told apart by as many
  match args with
  | [] | [_] | [_, _] => by_cases h : sender = receiver <;> simp [h]
  | [_, _, _] | _ :: _ :: _ :: _ :: _ =>
    by_cases h : sender = receiver <;> simp [h, ofItemArgs, Transfers.functionAt]

/-- The transfer that a token, a nonce and a value describe. -/
def ofTriple (triple : List Bytes) : Except Misread TokenTransfer := do
  let token ← get triple 0
  let nonce ← get triple 1
  let value ← get triple 2
  return TokenTransfer.ofArgs token nonce value

/-- Reading three by three goes right. -/
theorem mapM_ofTriple_groups (args : List Bytes) :
    (groups 3 args).mapM ofTriple = .ok (TokenTransfer.listOfArgs args) := by
  induction args using TokenTransfer.listOfArgs.induct with
  | case1 token nonce value rest ih =>
      have hgroups : groups 3 (token :: nonce :: value :: rest) =
          [token, nonce, value] :: groups 3 rest :=
        groups_append (by decide) [token, nonce, value] rest rfl
      rw [hgroups, List.mapM_cons, ih]
      rfl
  | case2 args hshort =>
      have hlength : args.length < 3 := by
        match args with
        | [] | [_] | [_, _] => simp
        | _ :: _ :: _ :: _ => exact absurd rfl (hshort _ _ _ _)
      rw [groups_of_length_lt hlength, TokenTransfer.listOfArgs]
      · rfl
      · exact hshort

/-- The transfers that a count and as many triples describe, the count at a position, and perhaps
a function. -/
def ofCountedArgs? (destination : Bytes) (args : List Bytes) (position : Nat) :
    Except Misread (Option Transfers) := do
  match args[position]? with
  | none => return none
  | some count =>
    let n := (Bytes.toUInt64 count).toNat
    let start := position + 1
    match (product? n 3).bind fun length => sum? length start with
    | none => return none
    | some stop =>
      if n = 0 ∨ args.length < stop then return none
      let triples ← slice args start stop
      let items ← (groups 3 triples).mapM ofTriple
      return some ⟨destination, Transfers.functionAt args stop, items⟩

/-- The transfer of any number of items: the destination if the owner sends, a count, triples of
token, nonce and value, and perhaps a function. -/
def ofMultiArgs? (args : List Bytes) (sender receiver : Bytes) :
    Except Misread (Option Transfers) :=
  if sender = receiver then
    match args[0]? with
    | none => return none
    | some destination => ofCountedArgs? destination args 1
  else ofCountedArgs? receiver args 0

/-- Reading as many items as a count says goes right: the triples are looked at only where there are
enough arguments for them. -/
theorem ofCountedArgs?_succeeds (destination : Bytes) (args : List Bytes) (position : Nat) :
    Succeeds (ofCountedArgs? destination args position) fun ts =>
      args.length < counterLimit →
        ts = Transfers.ofCountedArgs? destination (args.drop position) := by
  unfold ofCountedArgs?
  cases hcount : args[position]? with
  | none =>
      have hdrop : args.drop position = [] :=
        List.drop_eq_nil_of_le (List.getElem?_eq_none_iff.mp hcount)
      exact .ok fun _ => by rw [hdrop, Transfers.ofCountedArgs?]
  | some count =>
      obtain ⟨hposition, hget⟩ := List.getElem?_eq_some_iff.mp hcount
      have hdrop : args.drop position = count :: args.drop (position + 1) := by
        rw [List.drop_eq_getElem_cons hposition, hget]
      have hlength : (args.drop (position + 1)).length = args.length - (position + 1) :=
        List.length_drop
      simp only [hdrop, Transfers.ofCountedArgs?, product?_bind_sum?]
      set n := (Bytes.toUInt64 count).toNat
      set rest := args.drop (position + 1) with hrest
      by_cases hlimit : n * 3 + (position + 1) < counterLimit
      · simp only [if_pos hlimit]
        by_cases hstop : n = 0 ∨ args.length < n * 3 + (position + 1)
        · rw [if_pos hstop]
          exact .ok fun _ => by rw [if_pos (by omega)]
        · have hslice : slice args (position + 1) (n * 3 + (position + 1)) =
              .ok (rest.take (n * 3 + (position + 1) - (position + 1))) :=
            slice_of_le (Nat.le_add_left _ _) (by omega)
          -- between both positions lie the triples, and a function may stand at the second one
          rw [Nat.add_sub_cancel] at hslice
          rw [if_neg hstop, hslice, ok_bind, mapM_ofTriple_groups, ok_bind]
          refine .ok fun _ => ?_
          have hfunction : Transfers.functionAt args (n * 3 + (position + 1)) =
              Transfers.functionAt rest (3 * n) := by
            rw [Transfers.functionAt, Transfers.functionAt, hrest, List.getElem?_drop,
              Nat.add_comm, Nat.mul_comm]
          rw [if_neg (by omega), hfunction, Nat.mul_comm]
      · -- a counter can count the arguments, but not as many as there would have to be
        rw [if_neg hlimit]
        exact .ok fun hargs => by rw [if_pos (by omega)]

/-- A counter that cannot show a product or a sum makes the reader give up, so what is read is
compared for fewer arguments only. That nothing goes wrong holds in any case. -/
theorem ofMultiArgs?_succeeds (args : List Bytes) (sender receiver : Bytes) :
    Succeeds (ofMultiArgs? args sender receiver) fun ts =>
      args.length < counterLimit → ts = Transfers.ofMultiArgs? args sender receiver := by
  unfold ofMultiArgs? Transfers.ofMultiArgs?
  by_cases h : sender = receiver
  · rw [if_pos h, if_pos h]
    match args with
    | [] => exact .ok fun _ => rfl
    | destination :: args => exact ofCountedArgs?_succeeds destination (destination :: args) 1
  · rw [if_neg h, if_neg h]
    exact ofCountedArgs?_succeeds receiver args 0

example : ofMultiArgs? [[255, 255, 255, 255, 255, 255, 255, 255], [1]] [1] [2] = .ok none := by
  decide

/-! ### Summaries -/

/-- A transfer of a fungible token: token, value, and perhaps a function of the receiver. -/
def readTokenTransfer (args : List Bytes) (receiver : Bytes) : Except Misread CallSummary := do
  let base := CallSummary.ofOperation CallKind.tokenTransferName
  if args.length < 2 then return base
  let token ← get args 0
  if !Bytes.isAscii token then return base
  let isContract ← isContractKey receiver
  let value ← get args 1
  return { base with
    function := if isContract then Transfers.functionAt args 2 else ""
    tokens := [Utf8.lenient token]
    values := [decimalOfBytes value] }

@[simp]
theorem readTokenTransfer_eq (args : List Bytes) (receiver : Bytes) :
    readTokenTransfer args receiver = .ok (CallReader.readTokenTransfer args receiver) := by
  unfold readTokenTransfer CallReader.readTokenTransfer
  match args with
  | [] | [_] => simp
  | token :: _ :: _ =>
    by_cases h : Bytes.isAscii token = true <;> simp [h, Transfers.functionAt]

/-- A transfer of one item of a collection. -/
def readNftTransfer (r : CallReader) (args : List Bytes) (sender receiver : Bytes) :
    Except Misread CallSummary := do
  let base := CallSummary.ofOperation CallKind.nftTransferName
  match ← ofNftArgs? args sender receiver with
  | none => return base
  | some ts =>
    match ts.items with
    | [] => return base
    | item :: _ =>
      if !Bytes.isAscii item.token then return base
      let isContract ← isContractKey ts.destination
      let token ← tokenIdentifier (Utf8.lenient item.token) item.nonce
      let shard ← shardOf r.sharding ts.destination
      return { base with
        function := if isContract && isAsciiText ts.function then ts.function else ""
        tokens := [token]
        values := [item.value]
        receivers := [r.addresses.encodeOrEmpty ts.destination]
        receiverShards := [shard] }

@[simp]
theorem readNftTransfer_eq (r : CallReader) (args : List Bytes) (sender receiver : Bytes) :
    readNftTransfer r args sender receiver = .ok (r.readNftTransfer args sender receiver) := by
  unfold readNftTransfer CallReader.readNftTransfer
  rw [ofNftArgs?_eq, ok_bind]
  match Transfers.ofNftArgs? args sender receiver with
  | none => rfl
  | some ⟨_, _, []⟩ => rfl
  | some ⟨_, _, item :: _⟩ => by_cases h : Bytes.isAscii item.token = true <;> simp [h]

/-- A transfer of any number of items. -/
def readMultiTransfer (r : CallReader) (args : List Bytes) (sender receiver : Bytes) :
    Except Misread CallSummary := do
  let base := CallSummary.ofOperation CallKind.multiTransferName
  match ← ofMultiArgs? args sender receiver with
  | none => return base
  | some ts =>
    let isContract ← isContractKey ts.destination
    let shard ← shardOf r.sharding ts.destination
    let tokens ← ts.items.mapM fun i => tokenIdentifier (Utf8.lenient i.token) i.nonce
    return { base with
      function := if isContract then ts.function else ""
      tokens
      values := ts.items.map (·.value)
      receivers := ts.items.map fun _ => r.addresses.encodeOrEmpty ts.destination
      receiverShards := ts.items.map fun _ => shard }

theorem readMultiTransfer_succeeds (r : CallReader) (args : List Bytes)
    (sender receiver : Bytes) :
    Succeeds (readMultiTransfer r args sender receiver) fun said =>
      args.length < counterLimit → said = r.readMultiTransfer args sender receiver := by
  unfold readMultiTransfer CallReader.readMultiTransfer
  refine (ofMultiArgs?_succeeds args sender receiver).bind fun ts hts => ?_
  match ts with
  | none => exact .ok fun hargs => by rw [← hts hargs]
  | some ts =>
    have htokens : (ts.items.mapM fun i => tokenIdentifier (Utf8.lenient i.token) i.nonce) =
        .ok (ts.items.map fun i =>
          ChainIndex.tokenIdentifier (Utf8.lenient i.token) i.nonce) :=
      mapM_eq_ok fun i _ => tokenIdentifier_eq _ _
    simp only [isContractKey_eq, shardOf_eq, htokens, ok_bind]
    exact .ok fun hargs => by rw [← hts hargs]

/-- A change of the supply of a fungible token: token and value. -/
def readTokenQuantity (call : Call) : Except Misread CallSummary := do
  let base := CallSummary.ofOperation call.function
  if call.args.length < 2 then return base
  let token ← get call.args 0
  if !Bytes.isAscii token then return base
  let value ← get call.args 1
  return { base with tokens := [Utf8.lenient token], values := [decimalOfBytes value] }

@[simp]
theorem readTokenQuantity_eq (call : Call) :
    readTokenQuantity call = .ok (CallReader.readTokenQuantity call) := by
  unfold readTokenQuantity CallReader.readTokenQuantity
  match call.args with
  | [] | [_] => simp
  | token :: _ :: _ => by_cases h : Bytes.isAscii token = true <;> simp [h]

/-- A change of the supply of an item: token, nonce and value. -/
def readNftQuantity (call : Call) : Except Misread CallSummary := do
  let base := CallSummary.ofOperation call.function
  if call.args.length < 3 then return base
  let token ← get call.args 0
  if !Bytes.isAscii token then return base
  let nonce ← get call.args 1
  let token ← tokenIdentifier (Utf8.lenient token) (Bytes.toUInt64 nonce)
  let value ← get call.args 2
  return { base with tokens := [token], values := [decimalOfBytes value] }

@[simp]
theorem readNftQuantity_eq (call : Call) :
    readNftQuantity call = .ok (CallReader.readNftQuantity call) := by
  unfold readNftQuantity CallReader.readNftQuantity
  match call.args with
  | [] | [_] | [_, _] => simp
  | token :: _ :: _ :: _ => by_cases h : Bytes.isAscii token = true <;> simp [h]

/-- Splits an identifier that ends in raw nonce bytes. -/
def splitRawIdentifier (arg : Bytes) : Except Misread (String × UInt64) := do
  let ticker := arg.takeWhile (· != 0x2D)
  let rest := (arg.dropWhile (· != 0x2D)).drop 1
  if rest.length ≤ 6 then return (Utf8.lenient arg, 0)
  let random ← front rest 6
  let nonce ← back rest 6
  return (Utf8.lenient ticker ++ "-" ++ Utf8.lenient random, Bytes.toUInt64 nonce)

/-- The six random bytes are cut out only where the argument has them. -/
@[simp]
theorem splitRawIdentifier_eq (arg : Bytes) :
    splitRawIdentifier arg = .ok (ChainIndex.splitRawIdentifier arg) := by
  unfold splitRawIdentifier ChainIndex.splitRawIdentifier
  dsimp only
  split
  · rfl
  · next h =>
    have hlength := Nat.le_of_lt (Nat.not_le.mp h)
    rw [front_of_le hlength, back_of_le hlength]
    rfl

/-- A hold on somebody's tokens: a collection, perhaps with the raw bytes of a nonce. -/
def readBlocking (call : Call) : Except Misread CallSummary := do
  let base := CallSummary.ofOperation call.function
  match call.args with
  | [] => return base
  | arg :: _ =>
    let (collection, nonce) ← splitRawIdentifier arg
    if !isAsciiText collection then return base
    let token ← tokenIdentifier collection nonce
    return { base with tokens := [token] }

@[simp]
theorem readBlocking_eq (call : Call) :
    readBlocking call = .ok (CallReader.readBlocking call) := by
  unfold readBlocking CallReader.readBlocking
  match call.args with
  | [] => rfl
  | arg :: _ =>
    dsimp only
    rw [splitRawIdentifier_eq, ok_bind]
    by_cases h : isAsciiText (ChainIndex.splitRawIdentifier arg).1 = true <;> simp [h]

/-! ### Relayed transactions

Reading is done twice, once for the data and once for what it wraps, and both times by `readWith`,
which is told what to make of a relayed call. So its theorem takes the one about relayed calls as a
hypothesis, with a condition `C` of its own. -/

/-- The summary of data, given what to make of a relayed transaction. -/
def readWith (r : CallReader) (relayed : Call → Except Misread CallSummary)
    (data sender receiver : Bytes) : Except Misread CallSummary := do
  if !data.isEmpty && r.addresses.isNobody receiver then
    return .ofOperation CallSummary.deployOperation
  match Call.ofData? data with
  | none => return .ofOperation CallSummary.plainOperation
  | some call =>
    match CallKind.ofName call.function with
    | .tokenTransfer => readTokenTransfer call.args receiver
    | .nftTransfer => readNftTransfer r call.args sender receiver
    | .multiTransfer => readMultiTransfer r call.args sender receiver
    | .tokenQuantity => readTokenQuantity call
    | .nftQuantity => readNftQuantity call
    | .blocking => readBlocking call
    | .relayed => relayed call
    | .relayedParts => relayed call
    | .builtin => return .ofOperation call.function
    | .contract =>
      let base := CallSummary.ofOperation CallSummary.plainOperation
      let isContract ← isContractKey receiver
      if isContract && isAsciiText call.function then
        return { base with function := call.function }
      return base

/-- Data makes at most one part more than it has bytes, and so a bound on the data is one on the
arguments. -/
theorem length_splitOn_le {α : Type} [BEq α] (a : α) (xs : List α) :
    (xs.splitOn a).length ≤ xs.length + 1 := by
  induction xs with
  | nil => simp
  | cons x xs ih =>
      rw [List.splitOn_cons_eq_if_modifyHead]
      split
      · exact Nat.succ_le_succ ih
      · rw [List.length_modifyHead]
        exact Nat.le_succ_of_le ih

theorem length_of_mapM_eq_some {α β : Type} {f : α → Option β} {xs : List α} {ys : List β}
    (h : xs.mapM f = some ys) : ys.length = xs.length := by
  induction xs generalizing ys with
  | nil =>
      cases h
      rfl
  | cons x xs ih =>
      rw [List.mapM_cons] at h
      obtain ⟨y, -, h⟩ := Option.bind_eq_some_iff.mp h
      obtain ⟨ys', hys', h⟩ := Option.bind_eq_some_iff.mp h
      cases h
      rw [List.length_cons, List.length_cons, ih hys']

/-- Data has at most as many arguments as bytes. -/
theorem length_args_le {data : Bytes} {call : Call} (h : Call.ofData? data = some call) :
    call.args.length ≤ data.length := by
  have hparts := length_splitOn_le atSign data
  rw [Call.ofData?] at h
  split at h
  · exact nomatch h
  · split at h
    · exact nomatch h
    · next function args hsplit =>
      split at h
      · exact nomatch h
      · obtain ⟨args', hargs, rfl⟩ := Option.map_eq_some_iff.mp h
        rw [hsplit, List.length_cons] at hparts
        rw [length_of_mapM_eq_some hargs]
        exact Nat.le_of_succ_le_succ hparts

/-- Reading goes right if it does for relayed transactions. -/
theorem readWith_succeeds (r : CallReader) {relayed : Call → Except Misread CallSummary}
    {relayed' : Call → CallSummary} {C : Call → Prop} (data sender receiver : Bytes)
    (hrelayed : ∀ call, Succeeds (relayed call) fun said => C call → said = relayed' call) :
    Succeeds (readWith r relayed data sender receiver) fun said =>
      data.length < counterLimit → (∀ call, Call.ofData? data = some call → C call) →
        said = r.readWith relayed' data sender receiver := by
  unfold readWith CallReader.readWith
  by_cases hnobody : (!data.isEmpty && r.addresses.isNobody receiver) = true
  · rw [if_pos hnobody, if_pos hnobody]
    exact .ok fun _ _ => rfl
  · rw [if_neg hnobody, if_neg hnobody]
    cases hcall : Call.ofData? data with
    | none => exact .ok fun _ _ => rfl
    | some call =>
        dsimp only
        have hopen : Succeeds (relayed call) fun said => data.length < counterLimit →
            (∀ call', some call = some call' → C call') → said = relayed' call := by
          obtain ⟨said, hsaid, heq⟩ := hrelayed call
          exact .of_eq hsaid fun _ hC => heq (hC call rfl)
        cases CallKind.ofName call.function with
        | tokenTransfer => exact .of_eq (readTokenTransfer_eq _ _) fun _ _ => rfl
        | nftTransfer => exact .of_eq (readNftTransfer_eq _ _ _ _) fun _ _ => rfl
        | multiTransfer =>
            obtain ⟨said, hsaid, heq⟩ := readMultiTransfer_succeeds r call.args sender receiver
            exact .of_eq hsaid fun hdata _ =>
              heq (Nat.lt_of_le_of_lt (length_args_le hcall) hdata)
        | tokenQuantity => exact .of_eq (readTokenQuantity_eq _) fun _ _ => rfl
        | nftQuantity => exact .of_eq (readNftQuantity_eq _) fun _ _ => rfl
        | blocking => exact .of_eq (readBlocking_eq _) fun _ _ => rfl
        | relayed => exact hopen
        | relayedParts => exact hopen
        | builtin => exact .ok fun _ _ => rfl
        | contract =>
            dsimp only
            rw [isContractKey_eq, ok_bind]
            split <;> exact .ok fun _ _ => rfl

/-- The summary of data in which a relayed transaction is not opened. -/
def readUnopened (r : CallReader) (data sender receiver : Bytes) : Except Misread CallSummary :=
  readWith r (fun _ => .ok .unread) data sender receiver

theorem readUnopened_succeeds (r : CallReader) (data sender receiver : Bytes) :
    Succeeds (readUnopened r data sender receiver) fun said =>
      data.length < counterLimit → said = r.readUnopened data sender receiver := by
  obtain ⟨said, hsaid, heq⟩ := readWith_succeeds r (C := fun _ => True) data sender receiver
    fun _ => .ok (P := fun said => True → said = CallSummary.unread) fun _ => rfl
  exact .of_eq hsaid fun hdata => heq hdata fun _ _ => trivial

/-- The transaction whose receiver, nonce, data and signature are the four arguments; the outer
receiver is its sender. -/
def ofParts? (args : List Bytes) (receiver : Bytes) :
    Except Misread (Option InnerTransaction) := do
  if args.length ≠ 4 then return none
  let innerReceiver ← get args 0
  let data ← get args 2
  return some ⟨innerReceiver, receiver, data⟩

theorem ofParts?_eq (args : List Bytes) (receiver : Bytes) :
    ofParts? args receiver = .ok (InnerTransaction.ofParts? args receiver) := by
  unfold ofParts? InnerTransaction.ofParts?
  match args with
  | [] | [_] | [_, _] | [_, _, _] | [_, _, _, _] => simp
  | _ :: _ :: _ :: _ :: _ :: _ => simp

/-- The transaction that a relayed call wraps. -/
def innerOf? (call : Call) (receiver : Bytes) : Except Misread (Option InnerTransaction) :=
  match CallKind.ofName call.function with
  | .relayed => .ok (InnerTransaction.ofText? call.args)
  | _ => ofParts? call.args receiver

@[simp]
theorem innerOf?_eq (call : Call) (receiver : Bytes) :
    innerOf? call receiver = .ok (CallReader.innerOf? call receiver) := by
  unfold innerOf? CallReader.innerOf?
  cases CallKind.ofName call.function with
  | relayed => rfl
  | _ => exact ofParts?_eq _ _

/-- The summary of a relayed call. -/
def readRelayed (r : CallReader) (receiver : Bytes) (call : Call) :
    Except Misread CallSummary := do
  match ← innerOf? call receiver with
  | none => return .unread
  | some inner =>
    let summary ← readUnopened r inner.data inner.sender inner.receiver
    if summary.isRelayed then return .unread
    if isNftTransferName summary.operation then return { summary with isRelayed := true }
    let shard ← shardOf r.sharding inner.receiver
    return { summary with
      receivers := [r.addresses.encodeOrEmpty inner.receiver]
      receiverShards := [shard]
      isRelayed := true }

/-- The transaction inside is read like any other, so it is its data that has to be short enough for
a counter. -/
theorem readRelayed_succeeds (r : CallReader) (receiver : Bytes) (call : Call) :
    Succeeds (readRelayed r receiver call) fun said =>
      (∀ inner, CallReader.innerOf? call receiver = some inner →
        inner.data.length < counterLimit) → said = r.readRelayed receiver call := by
  unfold readRelayed CallReader.readRelayed
  rw [innerOf?_eq, ok_bind]
  cases hinner : CallReader.innerOf? call receiver with
  | none => exact .ok fun _ => rfl
  | some inner =>
      dsimp only
      refine (readUnopened_succeeds r inner.data inner.sender inner.receiver).bind
        fun summary hsummary => ?_
      rw [shardOf_eq, ok_bind]
      by_cases hrelayed : summary.isRelayed = true
      · rw [if_pos hrelayed]
        exact .ok fun hdata => by rw [← hsummary (hdata inner rfl), if_pos hrelayed]
      · rw [if_neg hrelayed]
        by_cases hnft : isNftTransferName summary.operation = true
        · rw [if_pos hnft]
          exact .ok fun hdata => by
            rw [← hsummary (hdata inner rfl), if_neg hrelayed, if_pos hnft]
        · rw [if_neg hnft]
          exact .ok fun hdata => by
            rw [← hsummary (hdata inner rfl), if_neg hrelayed, if_neg hnft]

/-- What the data of a record between two keys says. -/
def read (r : CallReader) (data sender receiver : Bytes) : Except Misread CallSummary :=
  readWith r (readRelayed r receiver) data sender receiver

/-- A counter can measure data and that of the transaction that it wraps. -/
structure IsMeasurable (data receiver : Bytes) : Prop where
  outer : data.length < counterLimit
  inner : ∀ call, Call.ofData? data = some call →
    ∀ inner, CallReader.innerOf? call receiver = some inner → inner.data.length < counterLimit

/-- Reading data goes right, whatever the data. -/
theorem read_succeeds (r : CallReader) (data sender receiver : Bytes) :
    Succeeds (read r data sender receiver) fun said =>
      IsMeasurable data receiver → said = r.read data sender receiver := by
  obtain ⟨said, hsaid, heq⟩ := readWith_succeeds r data sender receiver
    (readRelayed_succeeds r receiver)
  exact .of_eq hsaid fun hdata => heq hdata.outer hdata.inner

end ChainIndex.Positional
