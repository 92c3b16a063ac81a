import HomelabInventory.CommittedRevision
import HomelabInventory.FamilyReplication
import HomelabInventory.FollowedRuns
import HomelabInventory.RecoveryNotices
import HomelabInventory.RemoteRuns
import HomelabInventory.SettledRoutes
import HomelabInventory.TruthfulDelivery
import HomelabInventory.TelemetryPreservation
import HomelabInventory.LiveUpdates
import HomelabInventory.KeptContributions
import HomelabInventory.ActivatedCatalog
import HomelabInventory.ConnectionIds
import HomelabInventory.PlacementInverse
import HomelabInventory.SteadyPlans
import HomelabInventory.AlignedLayouts
import HomelabInventory.MachineIntegers
import HomelabInventory.DebounceRule
import HomelabInventory.NetworkTraces
import HomelabInventory.UndisturbedReplan
import HomelabInventory.PcBuildAcceptance
import HomelabInventory.PortWiring
import HomelabInventory.ChunkedEvents
import HomelabInventory.EventCoordinatorWakes
import HomelabInventory.SettledForms
import HomelabInventory.RequestSignatures
import HomelabInventory.CooldownRuns
import HomelabInventory.KeptUpdates
import HomelabInventory.LockExclusion
import HomelabInventory.MigrationRuns
import HomelabInventory.StrongestEvidence
import HomelabInventory.M2Agreement
import HomelabInventory.RuntimeCacheRuns
import HomelabInventory.BackupRuns
import HomelabInventory.PrivateShares
