import RowSync.Backend
import RowSync.Binary64
import RowSync.Call
import RowSync.ChangeKey
import RowSync.Database.Local
import RowSync.Database.Session
import RowSync.Database.Statement
import RowSync.Database.Sync
import RowSync.Database.Tables
import RowSync.Error
import RowSync.Http.Action
import RowSync.Http.Answer
import RowSync.Http.Failure
import RowSync.Http.MediaType
import RowSync.Http.Request
import RowSync.Http.Resource
import RowSync.HybridClock
import RowSync.Json.Basic
import RowSync.Json.Decoder
import RowSync.Json.Outline
import RowSync.Json.Printer
import RowSync.Json.Token
import RowSync.Json.Value
import RowSync.Limits
import RowSync.LocalTables
import RowSync.Mutation
import RowSync.OrderedMap
import RowSync.Payload
import RowSync.Proofs.Addresses
import RowSync.Proofs.Arguments
import RowSync.Proofs.Backends
import RowSync.Proofs.Batches
import RowSync.Proofs.BulkAdoption
import RowSync.Proofs.BulkReports
import RowSync.Proofs.BulkWrites
import RowSync.Proofs.ByteOrder
import RowSync.Proofs.ChangeLog
import RowSync.Proofs.CheckedSums
import RowSync.Proofs.ClaimDrift
import RowSync.Proofs.ClaimedEdits
import RowSync.Proofs.CommittedWrites
import RowSync.Proofs.Commutation
import RowSync.Proofs.Compaction
import RowSync.Proofs.Confinement
import RowSync.Proofs.Database.BoundTimes
import RowSync.Proofs.Database.Columns
import RowSync.Proofs.Database.History
import RowSync.Proofs.Database.Isolation
import RowSync.Proofs.Database.LocalRows
import RowSync.Proofs.Database.Names
import RowSync.Proofs.Database.Reads
import RowSync.Proofs.Database.Rollback
import RowSync.Proofs.Database.Rows
import RowSync.Proofs.Database.Session
import RowSync.Proofs.Database.SingleRows
import RowSync.Proofs.Database.Sync
import RowSync.Proofs.Database.Writers
import RowSync.Proofs.Devices
import RowSync.Proofs.Echoes
import RowSync.Proofs.EmbeddedTexts
import RowSync.Proofs.Exchange
import RowSync.Proofs.Exhaustion
import RowSync.Proofs.Failures
import RowSync.Proofs.History
import RowSync.Proofs.Http.Action
import RowSync.Proofs.Http.Paths
import RowSync.Proofs.Http.Tables
import RowSync.Proofs.HybridClock
import RowSync.Proofs.Isolation
import RowSync.Proofs.KeptScopes
import RowSync.Proofs.LastWritten
import RowSync.Proofs.LocalBackends
import RowSync.Proofs.LocalStores
import RowSync.Proofs.Names
import RowSync.Proofs.OrderedMap
import RowSync.Proofs.PlainTables
import RowSync.Proofs.Plans
import RowSync.Proofs.Reconcile
import RowSync.Proofs.Redelivery
import RowSync.Proofs.RegularTables
import RowSync.Proofs.Replacement
import RowSync.Proofs.Replica
import RowSync.Proofs.Requests
import RowSync.Proofs.Retries
import RowSync.Proofs.Runs
import RowSync.Proofs.ScopeState.Basic
import RowSync.Proofs.ScopeState.Sound
import RowSync.Proofs.ScopeState.Writes
import RowSync.Proofs.Script.Basic
import RowSync.Proofs.Script.Names
import RowSync.Proofs.Script.Transaction
import RowSync.Proofs.Script.Uses
import RowSync.Proofs.Seeds
import RowSync.Proofs.Service
import RowSync.Proofs.SingleRows
import RowSync.Proofs.SingleWrites
import RowSync.Proofs.StagedReads
import RowSync.Proofs.StoreIsolation
import RowSync.Proofs.StoreNames
import RowSync.Proofs.StoreScopes
import RowSync.Proofs.StoreState
import RowSync.Proofs.StoredTimestamps
import RowSync.Proofs.SyncTables
import RowSync.Proofs.TableInvariant
import RowSync.Proofs.TableState
import RowSync.Proofs.Timestamps
import RowSync.Proofs.TransactionState
import RowSync.Proofs.ValidNames
import RowSync.Proofs.WireFormats
import RowSync.Reconcile
import RowSync.Row
import RowSync.Scope
import RowSync.Service
import RowSync.Settings
import RowSync.Store
import RowSync.SyncTables
import RowSync.Table
import RowSync.Text.Blank
import RowSync.Text.Extending
import RowSync.Text.Hex
import RowSync.Text.Ignorable
import RowSync.Text.Percent
import RowSync.Text.Quoted
import RowSync.Text.Substring
import RowSync.Text.Unprintable
import RowSync.Text.Unsigned
import RowSync.Timestamp
import RowSync.Transaction
import RowSync.Wire
