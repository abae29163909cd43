import ChainIndex.Account.Format
import ChainIndex.Config.Environment
import ChainIndex.Indexer
import ChainIndex.Main
import ChainIndex.Proofs.Block.Format
import ChainIndex.Proofs.Call
import ChainIndex.Proofs.Call.Holds
import ChainIndex.Proofs.Call.Relayed
import ChainIndex.Proofs.Call.Summary
import ChainIndex.Proofs.Call.Tokens
import ChainIndex.Proofs.Call.Transfers
import ChainIndex.Proofs.Chain.Fee
import ChainIndex.Proofs.Chain.RoundTrip
import ChainIndex.Proofs.Chain.Sharding
import ChainIndex.Proofs.Events.Independence
import ChainIndex.Proofs.Events.Marks
import ChainIndex.Proofs.Positional.Cut
import ChainIndex.Proofs.Search.AddedAccount
import ChainIndex.Proofs.Search.Closings
import ChainIndex.Proofs.Search.Convergence
import ChainIndex.Proofs.Search.Corrections
import ChainIndex.Proofs.Search.Delegations
import ChainIndex.Proofs.Search.Deletion
import ChainIndex.Proofs.Search.Endings
import ChainIndex.Proofs.Search.Import
import ChainIndex.Proofs.Search.Order
import ChainIndex.Proofs.Search.Requests
import ChainIndex.Proofs.Search.Roles
import ChainIndex.Proofs.Search.Tags
import ChainIndex.Proofs.Search.Types
import ChainIndex.Proofs.Search.Unreadable
import ChainIndex.Proofs.Search.Verdicts
import ChainIndex.Proofs.Settlement.Alignment
import ChainIndex.Proofs.Settlement.Fields
import ChainIndex.Proofs.Settlement.FirstListing
import ChainIndex.Proofs.Settlement.Rollback
import ChainIndex.Proofs.Settlement.Schedule
import ChainIndex.Proofs.Token.History
import ChainIndex.Search.Format
