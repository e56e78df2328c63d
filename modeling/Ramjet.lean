import Ramjet.SnapshotPublish
import Ramjet.ReplicatedIndex
import Ramjet.RoutingBoundary
import Ramjet.SingleFlights
import Ramjet.GuardDurability
import Ramjet.CompatibilityGate
import Ramjet.FailOpenSafety
import Ramjet.HealthPublication
import Ramjet.ParkCap
import Ramjet.SharedEngines
import Ramjet.WarmFloor
import Ramjet.ProfileExclusion
import Ramjet.DrainBeforeStop
import Ramjet.Redelivery
import Ramjet.NoOverclaim
import Ramjet.ReplayExchange
import Ramjet.TailReader
import Ramjet.ProbeRounds
import Ramjet.PlacementCoverage
import Ramjet.Failover
import Ramjet.ServedPrefixes
import Ramjet.FillHorizon
import Ramjet.CanonicalPrompt
import Ramjet.DrainHistory
import Ramjet.GuardWindows
import Ramjet.TransitionRequests
import Ramjet.AutomaticTransitions
import Ramjet.MachineView
import Ramjet.StreamUsage
import Ramjet.ReplayTail
