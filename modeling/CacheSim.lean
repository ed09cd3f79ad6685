import CacheSim.Bench.Basic
import CacheSim.Main
import CacheSim.Proofs.Alike.OneWay
import CacheSim.Proofs.Alike.Seeds
import CacheSim.Proofs.Blank.Session
import CacheSim.Proofs.Cache.Refinement
import CacheSim.Proofs.Clock
import CacheSim.Proofs.Config.Size
import CacheSim.Proofs.Document.RoundTrip
import CacheSim.Proofs.EventQueue.Heap
import CacheSim.Proofs.Memory.Latest
import CacheSim.Proofs.Memory.Retry
import CacheSim.Proofs.Overlay
import CacheSim.Proofs.Requestor.Rounds
import CacheSim.Proofs.Session.Accounts
import CacheSim.Proofs.Session.Functional
import CacheSim.Proofs.Session.Refinement
import CacheSim.Proofs.Simulation.Buildable
import CacheSim.Proofs.Simulation.Handshakes
import CacheSim.Proofs.Simulation.Inclusion
import CacheSim.Proofs.Simulation.Timing
import CacheSim.Proofs.Stats.Parts
import CacheSim.Proofs.Stats.Reachable
import CacheSim.Proofs.Stats.Resolution
import CacheSim.Proofs.Store.Consecutive
import CacheSim.Proofs.Store.LastUse
import CacheSim.Proofs.Store.Product
import CacheSim.Proofs.Traffic.Runs
import CacheSim.Proofs.Wakeups.Wakes
