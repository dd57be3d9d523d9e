import RepoLink.Store.OutboxFifo
import RepoLink.Library.RelyGuarantee
import RepoLink.Sync.Pull
import RepoLink.Sync.Drainer
import RepoLink.Properties.RollbackCoherence
import RepoLink.Sync.Address
import RepoLink.Properties.RemoteIdentity
import RepoLink.Sync.Inbound
import RepoLink.Properties.PullBaseline
import RepoLink.Sync.Poller
import RepoLink.Sync.DrainCalls
import RepoLink.Sync.PullCalls
import RepoLink.TaskService.Edits
import RepoLink.Properties.RemoteDrift
import RepoLink.Properties.LostEdit
import RepoLink.Properties.TaskAggregate
import RepoLink.Daemon.Tick
import RepoLink.Daemon.TickCalls
import RepoLink.Daemon.GracePass
import RepoLink.Properties.GraceBeforePrune
import RepoLink.Library.Recall
import RepoLink.Store.Edges
import RepoLink.TaskService.EdgeCalls
import RepoLink.Sync.EdgeCalls
import RepoLink.Properties.RelationSymmetry
import RepoLink.Sync.StampCalls
import RepoLink.Sync.ObserveCalls
import RepoLink.Properties.HonestFreshness
import RepoLink.Library.Acyclic
import RepoLink.Library.Crash
import RepoLink.Library.Mailroom
import RepoLink.TaskService.CycleGuard
import RepoLink.Sync.InboundEdges
import RepoLink.Properties.RelationAcyclicity
import RepoLink.Ports.Comments
import RepoLink.Ports.Entries
import RepoLink.Sync.AttachCalls
import RepoLink.WorkspaceService.Service
import RepoLink.Sync.CreationLedger
import RepoLink.Sync.CreationCalls
import RepoLink.Properties.CreationReplay
import RepoLink.Properties.DetachSticks
import RepoLink.Sync.CommentCalls
import RepoLink.Properties.CommentDelivery
import RepoLink.Properties.PromoteBaseline
import RepoLink.Properties.FilingRepair
import RepoLink.Properties.LinkAddress
import RepoLink.Domain.Handles
import RepoLink.TaskService.Resolve
import RepoLink.Properties.DisplayIds
import RepoLink.Properties.BoardColumn
import RepoLink.Library.Dict
import RepoLink.Search.Ranking
import RepoLink.Properties.SearchCompleteness
import RepoLink.Search.Chunker
import RepoLink.Search.Sidecar
import RepoLink.Search.Service
import RepoLink.Search.Chunks
import RepoLink.Properties.ReconcileRefinement
import RepoLink.Search.World
import RepoLink.Properties.VectorProfile
import RepoLink.Search.Fill
import RepoLink.Properties.RebuildHeals
import RepoLink.Properties.PollWatermark
import RepoLink.Properties.Rebaseline
import RepoLink.Library.Potential
import RepoLink.Sync.DrainTurns
import RepoLink.Properties.DrainPass
import RepoLink.Properties.DrainBudget
import RepoLink.Properties.ForcedPush
import RepoLink.Properties.PullConverges
import RepoLink.Properties.UnpushedEdges
import RepoLink.Sync.DraftCalls
import RepoLink.Properties.DraftEdits
import RepoLink.Library.Amidst
import RepoLink.Properties.TransferQueue
import RepoLink.Query.Blockers
import RepoLink.Properties.ChunkBudget
import RepoLink.Properties.RelationWalks
import RepoLink.RepoBindings.Origins
import RepoLink.Properties.PrefixAllocation
import RepoLink.Properties.HandleResolution
import RepoLink.Properties.PrefixGuard
import RepoLink.Domain.Project
import RepoLink.Properties.PriorityFixpoint
import RepoLink.Embed.Planning
import RepoLink.Properties.SemanticPlanning
import RepoLink.Library.Grove
import RepoLink.Query.ReadyTree
import RepoLink.Query.BranchRank
import RepoLink.Properties.ReadyForest
import RepoLink.Properties.VectorFill
import RepoLink.Query.Views
import RepoLink.Properties.BlockedViews
import RepoLink.Properties.PassedItems
import RepoLink.Library.Under
import RepoLink.Sync.RailCalls
import RepoLink.TaskService.RailCalls
import RepoLink.Properties.SingleRail
import RepoLink.Library.Utf8
import RepoLink.Search.Packing
import RepoLink.Properties.ChunkLossless
import RepoLink.Properties.CanonicalUrls
import RepoLink.Domain.Board
import RepoLink.Library.Ordered
import RepoLink.Store.ProjectTables
import RepoLink.Properties.ProjectRoundTrip
import RepoLink.ProjectService.Link
import RepoLink.Properties.LinkedBoards
import RepoLink.Library.Paging
import RepoLink.Properties.ListPages
import RepoLink.Github.Rest
import RepoLink.Properties.RestPaging
import RepoLink.Github.Graphql
import RepoLink.Properties.BoardPoll
import RepoLink.Search.Fold
import RepoLink.Properties.LiteralSpans
import RepoLink.Cli.Import
import RepoLink.Library.Descent
import RepoLink.Library.Ensures
import RepoLink.Ports.Unfailing
import RepoLink.Store.Rewrites
import RepoLink.TaskService.Unfailing
import RepoLink.Cli.Filed
import RepoLink.Cli.ImportCalls
import RepoLink.Properties.CascadeImport
import RepoLink.Library.ShiftRegister
import RepoLink.Domain.Hash
import RepoLink.Properties.HashMinting
import RepoLink.Library.Quoted
import RepoLink.Search.MatchGrammar
import RepoLink.Library.ReadThrough
import RepoLink.Sync.CoordsCache
import RepoLink.Properties.MatchExpr
import RepoLink.Properties.RelationCoords
import RepoLink.RepoBindings.Naming
import RepoLink.RepoBindings.Registry
import RepoLink.RepoBindings.Service
import RepoLink.Library.Growing
import RepoLink.Properties.RegistryRuns
import RepoLink.Properties.RegistryMirror
import RepoLink.Properties.AttachSettles
import RepoLink.RepoBindings.Soundness
import RepoLink.Library.Needle
import RepoLink.Cli.AgentsDocs
import RepoLink.Properties.AgentsBlock
import RepoLink.Properties.StartupBackstop
import RepoLink.Properties.LogFollow
import RepoLink.Properties.PreparedCache
import RepoLink.Library.Statements
import RepoLink.Store.SharedIdentity
import RepoLink.Properties.SharedIdentity
import RepoLink.Store.Backfill
import RepoLink.Properties.Backfills
import RepoLink.Properties.DriftReport
import RepoLink.Properties.ItemStatuses
import RepoLink.TaskService.UpdateCalls
import RepoLink.Properties.UpdateAddress
import RepoLink.Properties.OwedUpdates
import RepoLink.Properties.TypeIntent
import RepoLink.Properties.OneIssue
