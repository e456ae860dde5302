import OmniSpacetimeDb.Proofs.ClusterOffsets
import OmniSpacetimeDb.Proofs.ClusterRollback
import OmniSpacetimeDb.Proofs.ClusterVisibility
import OmniSpacetimeDb.Proofs.StoreHistory
import OmniSpacetimeDb.Proofs.Transaction
import OmniSpacetimeDb.Proofs.ReplayErrors
import OmniSpacetimeDb.Cluster.Server
import OmniSpacetimeDb.Proofs.Watermark
import OmniSpacetimeDb.Proofs.LockCycle
import OmniSpacetimeDb.Datastore.Serde
import OmniSpacetimeDb.Durability.ExampleDurability
import OmniSpacetimeDb.Proofs.LogRecovery
import OmniSpacetimeDb.Proofs.LogFile
import OmniSpacetimeDb.Proofs.LogRestart
import OmniSpacetimeDb.Foundations.Base128
import OmniSpacetimeDb.Foundations.Program
import OmniSpacetimeDb.Proofs.Decoding
import OmniSpacetimeDb.Proofs.Serialization
import OmniSpacetimeDb.Cluster.Host
import OmniSpacetimeDb.Proofs.ApplyBranches
import OmniSpacetimeDb.Proofs.ApplyUnwraps
import OmniSpacetimeDb.Cluster.Network
import OmniSpacetimeDb.Foundations.Link
import OmniSpacetimeDb.Proofs.NetworkDelivery
import OmniSpacetimeDb.Proofs.NetworkNodes
import OmniSpacetimeDb.Proofs.CrashRecovery
import OmniSpacetimeDb.Proofs.LogRewrite
import OmniSpacetimeDb.Proofs.ClusterFollowers
import OmniSpacetimeDb.Proofs.ClusterLeader
import OmniSpacetimeDb.Proofs.PollRounds
import OmniSpacetimeDb.Proofs.NetworkCluster
import OmniSpacetimeDb.Proofs.LogReads
import OmniSpacetimeDb.Foundations.Schedule
import OmniSpacetimeDb.Proofs.NetworkLiveness
import OmniSpacetimeDb.Proofs.LogDrain
import OmniSpacetimeDb.Cluster.Service
import OmniSpacetimeDb.Proofs.ServiceNetwork
import OmniSpacetimeDb.Proofs.ServiceStalls
import OmniSpacetimeDb.Proofs.ServiceShutdown
