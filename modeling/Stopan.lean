import Stopan.Lib.Base64
import Stopan.Lib.Batches
import Stopan.Lib.Binary64
import Stopan.Lib.Decimal
import Stopan.Lib.Dict
import Stopan.Lib.Runs
import Stopan.Lib.Result
import Stopan.Lib.Json
import Stopan.Lib.JsonText
import Stopan.Lib.FileTree
import Stopan.Lib.Latest
import Stopan.Lib.Logged
import Stopan.Lib.Weight
import Stopan.Common.Basic
import Stopan.Common.Json
import Stopan.Protection.Policy
import Stopan.Metadata.Schema
import Stopan.Metadata.ChunkProtection
import Stopan.Metadata.Catalog
import Stopan.Metadata.Recipes
import Stopan.Metadata.Scope
import Stopan.Cluster.Placement
import Stopan.Cas.Repository
import Stopan.Chunking.Planner
import Stopan.Backup.Policy
import Stopan.Backup.Worker
import Stopan.Backup.Service
import Stopan.Backup.FastPath
import Stopan.Restore.Checks
import Stopan.Backup.Node
import Stopan.Backup.Ownership
import Stopan.Backup.SnapshotSizes
import Stopan.Backup.Immutability
import Stopan.Backup.FileHistory
import Stopan.Backup.Reuse
import Stopan.Gc.LocalFiles
import Stopan.Gc.GeneratedChunks
import Stopan.Packs.DistributedStore
import Stopan.Membership.Manager
import Stopan.Membership.Convergence
import Stopan.Membership.OwnIncarnation
import Stopan.Membership.Leaving
import Stopan.Membership.Refutation
import Stopan.Replication.Plan
import Stopan.Replication.Push
import Stopan.Replication.Verify
import Stopan.Replication.Accounting
import Stopan.Replication.CopyCounts
import Stopan.Packs.Quotas
import Stopan.Packs.FailedPut
import Stopan.Packs.Limits
import Stopan.Packs.Recovery
import Stopan.Objects.Models
import Stopan.Objects.Codec
import Stopan.Objects.PayloadRoundTrip
import Stopan.Objects.Walk
import Stopan.Lib.Crash
import Stopan.Objects.Store
import Stopan.Objects.StoreWrites
import Stopan.Objects.ReadBack
import Stopan.Objects.Validation
import Stopan.Packs.PayloadRoundTrip
import Stopan.Packs.Import
import Stopan.Objects.Collector
import Stopan.Objects.StoreRuns
import Stopan.Erasure.DataPack
import Stopan.Erasure.RoundTrip
import Stopan.Erasure.ShardPush
import Stopan.Erasure.PushEvidence
import Stopan.Lib.Tiling
import Stopan.Metadata.ErasureCatalog
import Stopan.Objects.ErasureRecords
import Stopan.Metadata.ErasureLayout
import Stopan.Erasure.CatalogRuns
import Stopan.Erasure.PackIdentity
import Stopan.Erasure.PackMetadata
import Stopan.Erasure.RetryEvidence
import Stopan.Lib.TopK
import Stopan.Cluster.RankStability
import Stopan.Rpc.AdaptiveBatch
import Stopan.Restore.ErasureFetch
import Stopan.Replication.Selection
import Stopan.Cluster.PlacementEpoch
import Stopan.Packs.Discovery
import Stopan.Lib.Cuts
import Stopan.Chunking.FastCdc
import Stopan.Chunking.FileChunker
import Stopan.Node.Lifecycle
import Stopan.Metadata.RecipeCalls
import Stopan.Metadata.Links
import Stopan.Metadata.HashQueries
import Stopan.Protection.Scope
import Stopan.Protection.ScopeLimits
import Stopan.Protection.PushSelection
import Stopan.Replication.VerifyEvidence
import Stopan.Erasure.Verify
import Stopan.Erasure.VerifyEvidence
import Stopan.Erasure.VerifyRuns
import Stopan.Protection.VerificationEvidence
import Stopan.Lib.BoundedQueue
import Stopan.Replication.QueueIterator
import Stopan.Node.ChunkStream
import Stopan.Lib.Separated
import Stopan.Lib.PosixPath
import Stopan.Restore.Paths
import Stopan.Lib.StackWalk
import Stopan.Scanning.TreeWalker
import Stopan.Objects.TreeExport
import Stopan.Packs.Verifier
import Stopan.Packs.Downloads
import Stopan.Lib.Tally
import Stopan.Restore.ChunkFetch
import Stopan.Restore.FetchAccounting
import Stopan.Restore.SurvivingReplica
import Stopan.Restore.PackRecovery
import Stopan.Lib.Retention
import Stopan.Packs.PruneToLimits
import Stopan.Packs.PrunePlan
import Stopan.Packs.DryRun
import Stopan.Lib.Streaming
import Stopan.Node.MetadataPackService
import Stopan.Packs.RemoteTransfer
import Stopan.Packs.StreamedStore
import Stopan.Packs.StreamedPacks
import Stopan.Lib.Protobuf
import Stopan.Erasure.ShardMessages
import Stopan.Chunking.Configuration
import Stopan.Membership.Representable
import Stopan.Membership.CanonicalTable
import Stopan.Restore.Prefetcher
import Stopan.Restore.Restorer
import Stopan.Restore.PartialFiles
import Stopan.Restore.RestoreScene
import Stopan.Restore.RestoredFiles
import Stopan.Restore.RestoreRuns
import Stopan.Erasure.DataPackBuilder
import Stopan.Gc.PathSafety
import Stopan.Gc.AgeCollection
