import ChainIndex.Settlement.Listing

/-!
# Rollback

The hashes that a block has written, to be removed when the block is taken back. A transaction that
leaves the shard is written for good by the shard that it goes to.
-/

namespace ChainIndex

/-- Whether a miniblock takes transactions from a shard to another one. -/
def MiniBlock.leaves (self : UInt32) (b : MiniBlock) : Bool :=
  b.senderShard != b.receiverShard && b.senderShard == self && b.type == .transactions

/-- The hexadecimal hashes of transactions and of results that a block has written. -/
structure WrittenHashes where
  transactions : List String
  results : List String
deriving Repr, DecidableEq

/-- What to remove when a block is taken back, or nothing if its header describes no miniblock. -/
def Block.written? (b : Block) : Option WrittenHashes :=
  match b.header with
  | none => none
  | some h =>
    if h.miniBlocks.isEmpty then none
    else
      let kept := b.miniBlocks.zipIdx.filter fun e =>
        !h.isProcessed e.2 && !e.1.leaves h.shard
      let hashes := fun (wanted : MiniBlock → Bool) =>
        (kept.filter fun e => wanted e.1).flatMap fun e => e.1.hashes.map Hex.encode
      some ⟨hashes fun m => m.type != .results, hashes fun m => m.type == .results⟩

end ChainIndex
