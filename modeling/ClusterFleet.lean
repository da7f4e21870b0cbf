import ClusterFleet.Connection.Description
import ClusterFleet.Http.Transfer
import ClusterFleet.Json.Pointer
import ClusterFleet.Main
import ClusterFleet.Operator.Basic
import ClusterFleet.Pool
import ClusterFleet.Proofs.Health.Record
import ClusterFleet.Proofs.Health.Cadence
import ClusterFleet.Proofs.Health.Rivals
import ClusterFleet.Proofs.Crew
import ClusterFleet.Proofs.Registration.Coherence
import ClusterFleet.Proofs.Cache.Stage
import ClusterFleet.Proofs.Cache.SingleFlight
import ClusterFleet.Proofs.Registration.Reuse
import ClusterFleet.Proofs.Registration.Following
import ClusterFleet.Proofs.Registration.Upkeep
import ClusterFleet.Proofs.Isolation
import ClusterFleet.Proofs.Registration.Crash
import ClusterFleet.Proofs.Registration.Trust
import ClusterFleet.Proofs.Store.StandIn
import ClusterFleet.Proofs.Cluster.RoundTrip
import ClusterFleet.Proofs.Cluster.Admission
import ClusterFleet.Proofs.Health.Restart
import ClusterFleet.Proofs.Secrecy.Sight
import ClusterFleet.Proofs.Condition.Merged
import ClusterFleet.Proofs.Health.Miss
import ClusterFleet.Proofs.Cache.Linearization
import ClusterFleet.Proofs.Cache.Progress
import ClusterFleet.Proofs.Registration.Outcome
import ClusterFleet.Proofs.Registration.Refresh
import ClusterFleet.Proofs.Registration.Supply
import ClusterFleet.Proofs.Health.Effects
import ClusterFleet.Proofs.Health.Liveness
import ClusterFleet.Proofs.Freshness
import ClusterFleet.Proofs.Health.Monitoring
import ClusterFleet.Proofs.Health.Steering
