import BucketStore.Action
import BucketStore.Backend
import BucketStore.Bytes
import BucketStore.Document
import BucketStore.Document.Engines
import BucketStore.Document.Options
import BucketStore.Document.Staging
import BucketStore.Document.Values
import BucketStore.Driver
import BucketStore.Dynamo.Config
import BucketStore.Dynamo.Fault
import BucketStore.Dynamo.Item
import BucketStore.Dynamo.Service
import BucketStore.Dynamo.Store
import BucketStore.Entry
import BucketStore.Failure
import BucketStore.Failure.Outside
import BucketStore.KeyMap
import BucketStore.Keyspace.Config
import BucketStore.Keyspace.Driver
import BucketStore.Keyspace.Fault
import BucketStore.Keyspace.Name
import BucketStore.Listing
import BucketStore.Listing.Keyset
import BucketStore.Log
import BucketStore.Memory
import BucketStore.Options
import BucketStore.Program
import BucketStore.Sql.Client
import BucketStore.Sql.Config
import BucketStore.Sql.Driver
import BucketStore.Sql.Fault
import BucketStore.Sql.Reading
import BucketStore.Sql.Server
import BucketStore.Sql.Statement
import BucketStore.Staging.BucketListing
import BucketStore.Staging.Config
import BucketStore.Staging.Engine
import BucketStore.Staging.Item
import BucketStore.Staging.Locking
import BucketStore.Staging.MemoryItems
import BucketStore.Staging.Protocol
import BucketStore.Staging.Record
import BucketStore.Staging.Recovery
import BucketStore.Staging.Script
import BucketStore.Staging.SingleKey
import BucketStore.Staging.Update
import BucketStore.TableFile.Driver
import BucketStore.TableFile.Fault
import BucketStore.TableFile.Name
import BucketStore.Text.Blank
import BucketStore.Text.Hex
import BucketStore.Text.Integer
import BucketStore.Text.Printable
import BucketStore.Text.Quoted
import BucketStore.Text.Utf8
import BucketStore.Text.Words
import BucketStore.Transaction
import BucketStore.Transaction.WriteSet
import BucketStore.Wire
import BucketStore.Wire.Layout
import BucketStore.Workload
import BucketStore.Proofs.ProgramLogic
import BucketStore.Proofs.Places
import BucketStore.Proofs.Staging.RecordCodec
import BucketStore.Proofs.Staging.Contents
import BucketStore.Proofs.Staging.Replies
import BucketStore.Proofs.Staging.WellFormed
import BucketStore.Proofs.KeyMap
import BucketStore.Proofs.Staging.Lifecycle
import BucketStore.Proofs.Transaction.Touched
import BucketStore.Proofs.Transaction.WriteSet
import BucketStore.Proofs.Staging.Locks
import BucketStore.Proofs.Staging.ReadsOnly
import BucketStore.Proofs.Staging.Soundness
import BucketStore.Proofs.Staging.Tidying
import BucketStore.Proofs.Staging.Overlay
import BucketStore.Proofs.Staging.Preparing
import BucketStore.Proofs.Staging.Committing
import BucketStore.Proofs.ActionLogic
import BucketStore.Proofs.Staging.Reachable
import BucketStore.Proofs.Staging.Atomicity
import BucketStore.Proofs.Staging.Dropping
import BucketStore.Proofs.Staging.Attended
import BucketStore.Proofs.Staging.Recovering
import BucketStore.Proofs.Staging.NoOrphans
import BucketStore.Proofs.Listing
import BucketStore.Proofs.Memory
import BucketStore.Proofs.Staging.Refinement
import BucketStore.Proofs.Staging.RecordLife
import BucketStore.Proofs.Staging.Recovered
import BucketStore.Proofs.Staging.SingleKey
import BucketStore.Proofs.Staging.Clients
import BucketStore.Proofs.History
import BucketStore.Proofs.Staging.Truthful
import BucketStore.Proofs.Staging.LostReplies
import BucketStore.Proofs.Transaction.CarryOut
import BucketStore.Proofs.Transaction.Evaluation
import BucketStore.Proofs.Keyspace.Name
import BucketStore.Proofs.Naming
import BucketStore.Proofs.TableFile.Name
import BucketStore.Proofs.Alike
import BucketStore.Proofs.Embedding
import BucketStore.Proofs.Keyspace.Calls
import BucketStore.Proofs.TableFile.Calls
import BucketStore.Proofs.Embedded
import BucketStore.Proofs.Words
import BucketStore.Proofs.Sql.Reading
import BucketStore.Proofs.Sql.Documented
import BucketStore.Proofs.Sql.Conversation
import BucketStore.Proofs.Sql.Calls
import BucketStore.Proofs.Sql.Listing
import BucketStore.Proofs.Sql.Updating
import BucketStore.Proofs.Memory.Growth
import BucketStore.Proofs.Sql.Refinement
import BucketStore.Proofs.Dynamo.Attributes
import BucketStore.Proofs.Dynamo.Service
import BucketStore.Proofs.Dynamo.Store
import BucketStore.Proofs.Wire.StoredForms
import BucketStore.Proofs.Keyspace.Handles
import BucketStore.Proofs.Embedded.Updates
import BucketStore.Proofs.Staging.Steady
import BucketStore.Proofs.Staging.Effects
import BucketStore.Proofs.Staging.Sparing
import BucketStore.Proofs.Staging.Homes
import BucketStore.Proofs.Staging.LiveLocks
import BucketStore.Proofs.Staging.Reading
import BucketStore.Proofs.Staging.ListsAndGets
import BucketStore.Proofs.Listing.Fetches
import BucketStore.Proofs.Closing
import BucketStore.Proofs.Staging.Closing
import BucketStore.Proofs.PageSizes
import BucketStore.Proofs.Staging.Advancing
import BucketStore.Proofs.Staging.Restoring
import BucketStore.Proofs.Listing.Answers
import BucketStore.Proofs.Listing.Circling
import BucketStore.Proofs.Embedded.Names
import BucketStore.Proofs.Sql.Failing
import BucketStore.Proofs.Sql.Retrying
import BucketStore.Proofs.Sql.Isolation
import BucketStore.Proofs.Sql.Locking
import BucketStore.Proofs.Dynamo.Layout
import BucketStore.Proofs.Options
import BucketStore.Proofs.Sql.Redaction
import BucketStore.Proofs.Listing.Paginating
import BucketStore.Proofs.Logging
import BucketStore.Proofs.Embedded.Logging
import BucketStore.Proofs.Sql.Logging
import BucketStore.Proofs.Staging.Logging
import BucketStore.Proofs.ExpectedOutcomes
