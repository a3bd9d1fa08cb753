import Offloading.Kernel.Program
import Offloading.Library.Text
import Offloading.Main
import Offloading.Proofs.AddressMap
import Offloading.Proofs.Execution
import Offloading.Proofs.MappingTable
import Offloading.Proofs.TableHistory
import Offloading.Proofs.DeviceMemory
import Offloading.Proofs.Accelerator
import Offloading.Proofs.Link
import Offloading.Proofs.MappingLife
import Offloading.Proofs.FreshBlocks
import Offloading.Proofs.Region
import Offloading.Proofs.Enter
import Offloading.Proofs.MapType
import Offloading.Proofs.ExplicitMaps
import Offloading.Proofs.PatchedPointers
import Offloading.Proofs.Platform
import Offloading.Proofs.Calls
import Offloading.Proofs.Loading
import Offloading.Proofs.Reachable
import Offloading.Proofs.EntryCache
import Offloading.Proofs.Constructors
import Offloading.Proofs.ShadowLifetime
import Offloading.Proofs.Footprint
import Offloading.Proofs.Leave
import Offloading.Proofs.RoundTrip
import Offloading.Proofs.Chunks
import Offloading.Proofs.Delivery
import Offloading.Proofs.Placement
import Offloading.Proofs.Resolution
import Offloading.Proofs.Settlement
import Offloading.Proofs.Agreement
import Offloading.Proofs.StrategyAgreement
import Offloading.Proofs.Refusal
import Offloading.Proofs.Operation
import Offloading.Proofs.Ownership
import Offloading.Proofs.Phases
import Offloading.Proofs.Reclamation
import Offloading.Proofs.Turns
import Offloading.Proofs.Addresses
import Offloading.Proofs.SharedSections
import Offloading.Proofs.PlainArguments
import Offloading.Proofs.Readying
import Offloading.Proofs.HostPointers
import Offloading.Proofs.Recording
import Offloading.Proofs.KernelFree
import Offloading.Proofs.WithheldRegions
import Offloading.Proofs.PointerHistory
import Offloading.Proofs.Backing
import Offloading.Proofs.Arrival
import Offloading.Proofs.DevicePointers
import Offloading.Proofs.PatchedRuns
import Offloading.Proofs.Interleaving
import Offloading.Proofs.Distances
import Offloading.Proofs.OffsetList
import Offloading.Proofs.AddressTable
import Offloading.Proofs.HostWrites
import Offloading.Proofs.WriteBack
import Offloading.Proofs.KernelArguments
import Offloading.Proofs.OwnBlocks
import Offloading.Proofs.PointerStructs
import Offloading.Proofs.StructEntry
import Offloading.Proofs.StructDelivery
import Offloading.Proofs.StructReturn
import Offloading.Proofs.StructOffload
import Offloading.Proofs.LateResolution
import Offloading.Proofs.Pinned
import Offloading.Proofs.Attains
import Offloading.Proofs.Faultless
import Offloading.Proofs.Coalescing
import Offloading.Proofs.Flushing
import Offloading.Proofs.FaultlessRegion
import Offloading.Proofs.SectionStack
import Offloading.Proofs.WorkloadEntering
import Offloading.Proofs.WorkloadKernel
import Offloading.Proofs.WorkloadLaunch
import Offloading.Proofs.WorkloadLeaving
import Offloading.Proofs.WorkloadRegions
import Offloading.Proofs.WorkloadRuns
import Offloading.Proofs.LambdaCaptures
import Offloading.Proofs.Updates
import Offloading.Proofs.NestedLists
import Offloading.Proofs.NestedRoundTrip
import Offloading.Proofs.MappingRequests
import Offloading.Proofs.PointerArrayOffload
import Offloading.Proofs.MemberRoundTrip
import Offloading.Proofs.Associations
import Offloading.Proofs.MemoryHistory
import Offloading.Proofs.StoredOffsetLists
import Offloading.Proofs.LoadAttempts
import Offloading.Proofs.StoredAddressTables
import Offloading.Proofs.Expansions
import Offloading.Proofs.ShadowHistory
import Offloading.Proofs.ReferenceCount
import Offloading.Proofs.PhaseTimes
import Offloading.Proofs.CallCounts
import Offloading.Proofs.WorkloadReports
