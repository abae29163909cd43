import ChainIndex.Account.Build
import ChainIndex.Events
import ChainIndex.Operations
import ChainIndex.Search.Accounts
import ChainIndex.Search.Logs
import ChainIndex.Search.Store
import ChainIndex.Search.Tokens
import ChainIndex.Search.Transactions

/-!
# Indexing a block

A block goes through in three steps. First everything is taken from the block alone: `Digested`
holds its records, what its logs tell, and its accounts. Then the store is asked about tokens that
earlier blocks have issued. Last the documents are written; of two documents for one identifier the
later one counts last, so their order is part of the answer.
-/

namespace ChainIndex

/-- Everything that a block alone tells. -/
structure Digested where
  stamp : BlockStamp
  settled : Settled
  operations : List Transaction
  resultOperations : List ContractResult
  findings : Findings
  logs : List LogRecord
  events : List IndexedEvent
  accounts : Table AccountRecord
  accountHistory : Table BalanceSnapshot
  holdings : Table AccountRecord
  holdingHistory : Table BalanceSnapshot
  heldTokens : Registry
  tags : TagCounts
deriving Inhabited

/-- The tokens of a block with what the store has of them. -/
structure ResolvedTokens where
  created : Registry
  held : Registry
  removed : Registry
deriving Inhabited

namespace Network

variable (n : Network)

/-- Everything that a block alone tells. -/
def digest (importMode : Bool) (b : Block) : Digested :=
  let stamp := b.stamp
  let settled := n.settle b importMode
  let reading := n.readLogs stamp b.logs settled.transactions settled.results
  let logs := b.logs.map (n.logRecord stamp reading.results)
  let reader := n.accountReader
  let entries := holdingEntries b.accounts
  let accounts := reader.accountTable stamp (accountEntries b.accounts)
  let holdings := reader.holdingTable stamp entries
  let findings := reading.findings
  { stamp
    settled := { settled with
      transactions := reading.transactions
      results := reading.results }
    operations := transactionOperations importMode stamp.shard reading.transactions
    resultOperations := resultOperations importMode stamp.shard reading.results
    findings := { findings with
      created := findings.created.describe b.accounts.values
      endings := withStatuses settled.statuses findings.endings }
    logs
    events := indexedEvents stamp reading.transactions reading.results logs
    accounts
    accountHistory := snapshotsOf stamp accounts
    holdings
    holdingHistory := snapshotsOf stamp holdings
    heldTokens := reader.heldTokens stamp entries
    tags := reader.tagCounts entries }

end Network

namespace Digested

/-- The tokens of a block with what the store has of them: those created, those held, and those
removed, in this order. -/
def resolve (d : Digested) (store : TokenStore) (index : String) :
    Consultation ResolvedTokens := do
  let created ← store.resolve index d.findings.created
  let held ← store.resolve index d.heldTokens
  let removed ← store.resolve index d.findings.removed
  return ⟨created, held, removed⟩

/-- The documents about transactions and operations. -/
def recordDocuments (d : Digested) (names : IndexNames) : List Document :=
  let endings := d.findings.endings
  transactionDocuments names.transactions d.stamp.shard endings d.settled.transactions
  ++ transactionDocuments names.operations d.stamp.shard endings d.operations
  ++ resultDocuments names.operations d.resultOperations
  ++ feeDocuments names.transactions d.settled.fees
  ++ feeDocuments names.operations d.settled.fees

/-- The documents of logs, results and receipts. -/
def logAndResultDocuments (d : Digested) (names : IndexNames) : List Document :=
  logDocuments names.logs d.logs
  ++ eventDocuments names.events d.events
  ++ resultDocuments names.results d.settled.results
  ++ receiptDocuments names.receipts d.settled.receipts

/-- The documents about accounts and what they hold. -/
def accountAndHoldingDocuments (d : Digested) (held : Registry) (names : IndexNames) :
    List Document :=
  accountDocuments names.accounts d.accounts
  ++ snapshotDocuments names.accountsHistory d.accountHistory
  ++ holdingDocuments names.tokenAccounts (d.holdings.map fun _ a => a.typedBy held)
  ++ heldItemDocuments names.tokenAccounts d.findings.itemUpdates
  ++ snapshotDocuments names.tokenAccountsHistory d.holdingHistory

/-- The documents about what the logs tell of tokens, delegations and contracts. -/
def findingDocuments (d : Digested) (removed : Registry) (names : IndexNames) : List Document :=
  let f := d.findings
  tagDocuments names.tags d.tags
  ++ tokenDocuments names.esdts f.issued f.itemUpdates
  ++ tokenDocuments names.tokens f.issued f.itemUpdates
  ++ delegationDocuments names.delegators f.delegations
  ++ removalDocuments names.tokens removed
  ++ roleDocuments names.tokens f.roleBook
  ++ roleDocuments names.esdts f.roleBook
  ++ deploymentDocuments names.deploys f.deployments
  ++ ownerDocuments names.deploys f.owners

/-- All documents of a block in the order in which they are to be written. -/
def documents (d : Digested) (tokens : ResolvedTokens) (names : IndexNames) : List Document :=
  d.recordDocuments names
  ++ createdDocuments names.tokens tokens.created
  ++ d.logAndResultDocuments names
  ++ d.accountAndHoldingDocuments tokens.held names
  ++ d.findingDocuments tokens.removed names

end Digested

/-- An indexer of blocks. It keeps nothing from one block to the next. -/
structure Indexer where
  network : Network
  importMode : Bool
  names : IndexNames

namespace Indexer

/-- The indexer that settings describe. -/
def ofConfig (c : Config) : Except Error Indexer := do
  c.validate
  let network ← Network.ofConfig c
  return ⟨network, c.importMode, c.indices⟩

/-- The documents of a block in the order in which they are to be written. -/
def process (x : Indexer) (store : TokenStore) (b : Block) : Consultation (List Document) := do
  let digested := x.network.digest x.importMode b
  let tokens ← digested.resolve store x.names.tokens
  return digested.documents tokens x.names

end Indexer

end ChainIndex
