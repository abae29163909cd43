import ChainIndex.Proofs.Settlement.Listing

/-!
# A miniblock that is executed over several blocks

The header of each block says which range of the miniblock the block has executed. Headers whose
ranges tile the miniblock (`TileAt`) execute every hash of it once, in order. A block adds the
transactions of its own range and no others, if it takes them up at all
(`Network.executed_of_tileAt`).

Bounds are signed: the first range may begin in front of the miniblock and the last one may end
behind it. A range that runs back is left out, for the next one would begin in front of it and
execute some hashes again. The induction is along the headers; it keeps that the starts ascend
(`TileAt.start_le_stop`), which is where a range that does not run back is used.
-/

namespace ChainIndex

/-! ### Ranges -/

/-- What headers say of the miniblock at a position: their ranges tile the indexes from a first one
up to another one. Each goes on where the one before it ends. A range may be empty, but it does not
run back. -/
inductive TileAt (position : Nat) : Int → List Header → Int → Prop
  | done {start : Int} : TileAt position start [] start
  | next {h : Header} {m : MiniBlockHeader} {hs : List Header} {start stop : Int}
      (described : h.miniBlocks[position]? = some m) (starts : m.firstExecuted.toInt = start)
      (forward : start ≤ m.lastExecuted.toInt + 1)
      (rest : TileAt position (m.lastExecuted.toInt + 1) hs stop) :
      TileAt position start (h :: hs) stop

/-- Elements whose indexes lie between two numbers are a front part without its own front part. -/
theorem map_filter_zipIdx_between {α : Type} (xs : List α) (first past k : Nat) :
    ((xs.zipIdx k).filter fun e => decide (first ≤ e.2) && decide (e.2 < past)).map Prod.fst =
      (xs.take (past - k)).drop (first - k) := by
  induction xs generalizing k with
  | nil => simp
  | cons x xs ih =>
      -- the first element lies behind both bounds, between them, or in front of both
      have hstep : ∀ bound, k < bound → bound - k = bound - (k + 1) + 1 := fun _ _ => by omega
      rw [List.zipIdx_cons, List.filter_cons]
      rcases Nat.lt_or_ge k past with hpast | hpast
      · rcases Nat.lt_or_ge k first with hfirst | hfirst
        · rw [if_neg (by simpa using fun hle => absurd hle (Nat.not_le_of_lt hfirst)), ih,
            hstep past hpast, hstep first hfirst, List.take_succ_cons, List.drop_succ_cons]
        · rw [if_pos (by simpa using ⟨hfirst, hpast⟩), List.map_cons, ih, hstep past hpast,
            List.take_succ_cons, Nat.sub_eq_zero_of_le hfirst,
            Nat.sub_eq_zero_of_le (Nat.le_succ_of_le hfirst), List.drop_zero, List.drop_zero]
      · rw [if_neg (by simpa using fun _ => hpast), ih, Nat.sub_eq_zero_of_le hpast,
          Nat.sub_eq_zero_of_le (Nat.le_succ_of_le hpast), List.take_zero, List.take_zero,
          List.drop_nil, List.drop_nil]

/-- The range of a miniblock is the part between its bounds, of which negative ones count as
zero. -/
theorem Header.executed_eq_drop_take {h : Header} {position : Nat} {m : MiniBlockHeader}
    (hm : h.miniBlocks[position]? = some m) (hashes : List Bytes) :
    h.executed position hashes =
      (hashes.take (m.lastExecuted.toInt + 1).toNat).drop m.firstExecuted.toInt.toNat := by
  have hcovers : ∀ e : Bytes × Nat, h.covers position e.2 =
      (decide (m.firstExecuted.toInt.toNat ≤ e.2) &&
        decide (e.2 < (m.lastExecuted.toInt + 1).toNat)) := by
    intro e
    rw [covers, hm]
    dsimp only
    congr 2 <;> (rw [Int.ofNat_eq_natCast]; apply propext; omega)
  rw [executed_eq]
  simp only [hcovers]
  exact map_filter_zipIdx_between hashes _ _ 0

namespace TileAt

variable {position : Nat} {start stop : Int} {hs : List Header}

theorem start_le_stop (ht : TileAt position start hs stop) : start ≤ stop := by
  induction ht with
  | done => exact Int.le_refl _
  | next _ _ forward _ ih => exact Int.le_trans forward ih

/-- One after another, headers execute the part between the ends of their ranges. -/
theorem flatMap_executed (ht : TileAt position start hs stop) (hashes : List Bytes) :
    hs.flatMap (·.executed position hashes) = (hashes.take stop.toNat).drop start.toNat := by
  induction ht with
  | done => rw [List.flatMap_nil, List.drop_take_self]
  | @next h m hs _ stop described starts forward rest ih =>
      subst starts
      have hpast := rest.start_le_stop
      -- what this header executes is the front of what is left from its start
      rw [List.flatMap_cons, Header.executed_eq_drop_take described, ih]
      set first := m.firstExecuted.toInt.toNat
      set past := (m.lastExecuted.toInt + 1).toNat
      have hfirst : first ≤ past := Int.toNat_le_toNat forward
      have htake : hashes.take past = (hashes.take stop.toNat).take past := by
        rw [List.take_take, Nat.min_eq_left (Int.toNat_le_toNat hpast)]
      rw [htake, List.drop_take, ← Nat.add_sub_cancel' hfirst, ← List.drop_drop,
        Nat.add_sub_cancel_left, List.take_append_drop]

/-- An index between the ends of the ranges lies in one range, and every other index in none. -/
theorem countP_covers (ht : TileAt position start hs stop) (index : Nat) :
    hs.countP (·.covers position index) = if start ≤ index ∧ index < stop then 1 else 0 := by
  induction ht with
  | done => rw [List.countP_nil, if_neg (by omega)]
  | @next h m hs _ stop described starts forward rest ih =>
      subst starts
      have hpast := rest.start_le_stop
      have hcovers : h.covers position index = true ↔
          m.firstExecuted.toInt ≤ index ∧ index ≤ m.lastExecuted.toInt := by
        rw [Header.covers, described]
        simp
      rw [List.countP_cons, ih]
      simp only [hcovers]
      split_ifs <;> omega

end TileAt

/-! ### What blocks take up -/

/-- A block takes up the transactions of a miniblock: the header does not say that they were
executed in an earlier block, and import mode does not leave them to another shard. -/
def Header.TakesUp (h : Header) (importMode : Bool) (b : PlacedMiniBlock) : Prop :=
  (∀ m, h.miniBlocks[b.2]? = some m → m.processing ≠ .processed) ∧
    (importMode = true → b.1.receiverShard = h.shard)

/-- A pool resolves hashes: each is that of a transaction. -/
def Pool.Resolves (pool : Pool) (type : MiniBlockType) (hashes : List Bytes) : Prop :=
  ∀ raw ∈ hashes, ∃ entry, pool.record? type (Hex.encode raw) = some (.normal entry)

/-- Only a miniblock of transactions has records of transactions. -/
theorem Pool.record?_eq_normal_iff {pool : Pool} {type : MiniBlockType} {hash : String}
    {entry : TxEntry} :
    pool.record? type hash = some (.normal entry) ↔
      type = .transactions ∧ pool.transactions.get? hash = some entry := by
  cases type <;> simp [Pool.record?]

namespace Network

variable {n : Network} {h : Header} {pool : Pool} {importMode : Bool}

/-- A block that takes a miniblock up adds the transactions that it has executed of it. -/
theorem mem_keys_transactionsOf {b : PlacedMiniBlock}
    (hpool : pool.Resolves b.1.type (h.executed b.2 b.1.hashes)) {hash : String} :
    hash ∈ (n.transactionsOf h pool importMode b).map Prod.fst ↔
      h.TakesUp importMode b ∧ h.Executes b hash := by
  have hlists : hash ∈ (n.transactionsOf h pool importMode b).map Prod.fst ↔
      ∃ t, n.ListsTransaction h pool importMode b hash t := by
    simp only [List.mem_map, Prod.exists, exists_and_right, exists_eq_right, mem_transactionsOf]
  have hresolved : h.Executes b hash →
      b.1.type = .transactions ∧ ∃ entry, pool.transactions.get? hash = some entry := by
    rintro ⟨i, raw, hraw, rfl, hcovers⟩
    obtain ⟨entry, hentry⟩ := hpool raw (Header.mem_executed.mpr ⟨i, hraw, hcovers⟩)
    obtain ⟨htype, hfound⟩ := Pool.record?_eq_normal_iff.mp hentry
    exact ⟨htype, entry, hfound⟩
  rw [hlists]
  constructor
  · rintro ⟨t, ht⟩
    cases ht with
    | normal _ hfresh hindexed hexecutes _ => exact ⟨⟨hfresh, hindexed⟩, hexecutes⟩
    | invalid htype hexecutes _ =>
        exact absurd ((hresolved hexecutes).1.symm.trans htype) (by decide)
  · rintro ⟨⟨hfresh, hindexed⟩, hexecutes⟩
    obtain ⟨htype, entry, hfound⟩ := hresolved hexecutes
    exact ⟨_, .normal htype hfresh hindexed hexecutes hfound⟩

/-- Blocks whose ranges tile a miniblock execute all of it, in order, and no index of it twice. A
block adds what is in its range, unless it does not take the miniblock up. -/
theorem executed_of_tileAt (n : Network) (importMode : Bool) (b : MiniBlock) (position : Nat)
    (blocks : List (Header × Pool)) {start stop : Int}
    (htile : TileAt position start (blocks.map Prod.fst) stop) (hstart : start ≤ 0)
    (hstop : b.hashes.length ≤ stop) :
    (blocks.flatMap fun x => x.1.executed position b.hashes) = b.hashes ∧
      (∀ index < b.hashes.length, (blocks.countP fun x => x.1.covers position index) = 1) ∧
      (∀ x ∈ blocks, x.2.Resolves b.type (x.1.executed position b.hashes) → ∀ hash,
        hash ∈ (n.transactionsOf x.1 x.2 importMode (b, position)).map Prod.fst ↔
          x.1.TakesUp importMode (b, position) ∧ x.1.Executes (b, position) hash) := by
  refine ⟨?_, fun index hindex => ?_, fun x hx hpool hash => mem_keys_transactionsOf hpool⟩
  · have hparts := htile.flatMap_executed b.hashes
    rw [List.flatMap_map] at hparts
    rw [hparts, List.take_of_length_le (by omega), Int.toNat_of_nonpos hstart, List.drop_zero]
  · have hcount := htile.countP_covers index
    rw [List.countP_map] at hcount
    exact hcount.trans (if_pos (by omega))

/-- Of three blocks, the first begins in front of the miniblock, the second executes nothing, and
the third goes on behind its end. -/
theorem executed_of_tileAt_of_three_blocks :
    let part (first last : Int32) : Header :=
      { miniBlocks := [{ firstExecuted := first, lastExecuted := last }] }
    let b : MiniBlock := ⟨.transactions, 0, 0, [[1], [2]]⟩
    let pool : Pool := { transactions := .ofList [("01", {}), ("02", {})] }
    let blocks := [part (-1) 0, part 1 0, part 1 5].map (·, pool)
    TileAt 0 (-1) (blocks.map Prod.fst) 6 ∧ b.hashes.length ≤ (6 : Int) ∧
      (blocks.flatMap fun x => x.1.executed 0 b.hashes) = b.hashes ∧
      "02" ∈ ((default : Network).transactionsOf (part 1 5) pool false (b, 0)).map Prod.fst := by
  intro part b pool blocks
  have htile : TileAt 0 (-1) (blocks.map Prod.fst) 6 :=
    .next rfl rfl (by decide) (.next rfl rfl (by decide) (.next rfl rfl (by decide) .done))
  have hstop : b.hashes.length ≤ (6 : Int) := by decide
  obtain ⟨hall, -, hadded⟩ := executed_of_tileAt default false b 0 blocks htile (by decide) hstop
  have hpool : pool.Resolves b.type ((part 1 5).executed 0 b.hashes) := by
    have hexecuted : (part 1 5).executed 0 b.hashes = [[2]] := by decide
    rw [hexecuted]
    exact fun raw hraw => ⟨{}, List.mem_singleton.mp hraw ▸ rfl⟩
  refine ⟨htile, hstop, hall, ?_⟩
  rw [hadded (part 1 5, pool) (.tail _ (.tail _ (.head _))) hpool]
  refine ⟨⟨fun m hm => ?_, nofun⟩, 1, [2], rfl, by decide, by decide⟩
  obtain rfl := Option.some.inj hm
  decide

/-- Ranges that run back execute a hash again. Import mode leaves a miniblock for another shard
alone, and so does a header that says that it was executed in an earlier block. -/
theorem not_executed_once :
    let part (processing : ProcessingType) (range : Int32 × Int32) : Header :=
      { miniBlocks :=
          [{ processing, firstExecuted := range.1, lastExecuted := range.2 }] }
    let ranges : List (Int32 × Int32) := [(0, 1), (2, 0), (1, 1)]
    let b : MiniBlock := ⟨.transactions, 0, 1, [[1], [2]]⟩
    let pool : Pool := { transactions := .ofList [("01", {}), ("02", {})] }
    (ranges.IsChain (fun range next => next.1.toInt = range.2.toInt + 1) ∧
      (ranges.map (part .normal)).flatMap (·.executed 0 b.hashes) = [[1], [2], [2]]) ∧
    pool.Resolves b.type b.hashes ∧
    ((part .normal (0, 1)).executed 0 b.hashes = b.hashes ∧
      (default : Network).transactionsOf (part .normal (0, 1)) pool true (b, 0) = []) ∧
    (part .processed (0, 1)).executed 0 b.hashes = b.hashes ∧
      (default : Network).transactionsOf (part .processed (0, 1)) pool false (b, 0) = [] := by
  intro part ranges b pool
  refine ⟨⟨by decide, by decide⟩, ?_, ⟨by decide, rfl⟩, by decide, rfl⟩
  intro raw hraw
  rcases List.mem_cons.mp hraw with rfl | hraw
  · exact ⟨{}, rfl⟩
  · obtain rfl := List.mem_singleton.mp hraw
    exact ⟨{}, rfl⟩

end Network

end ChainIndex
