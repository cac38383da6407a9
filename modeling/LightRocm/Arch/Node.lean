import Mathlib.Data.UInt

/-!
# The nodes of a topology

`light_rocr/runtime/topology.hpp`: what the transports find out about the processors and the GPUs
of the machine.
-/

namespace LightRocm.Topology

/-- `MemoryHeapType`. -/
inductive MemoryHeapType where
  | system
  | frameBufferPublic
  | frameBufferPrivate
  | gds
  | lds
  | scratch
  | deviceSvm
  | mmioRemap
  | unknown
  deriving DecidableEq

/-- `MemoryBank`. -/
structure MemoryBank where
  heapType : MemoryHeapType := .unknown
  size : UInt64 := 0
  virtualBaseAddress : UInt64 := 0
  width : UInt32 := 0
  maximumClockMhz : UInt32 := 0
  hotPluggable : Bool := false
  nonVolatile : Bool := false
  deriving DecidableEq

/-- `GpuArchitecture`. -/
structure GpuArchitecture where
  major : UInt32 := 0
  minor : UInt32 := 0
  stepping : UInt32 := 0
  deriving DecidableEq

/-- `Node`. The sizes of the context-save area are zero if the kernel does not report them. -/
structure Node where
  nodeId : UInt32 := 0
  gpuId : UInt32 := 0
  cpuCoreCount : UInt32 := 0
  simdCount : UInt32 := 0
  simdPerComputeUnit : UInt32 := 0
  wavefrontSize : UInt32 := 0
  maximumWavesPerSimd : UInt32 := 0
  ldsSizeKb : UInt32 := 0
  shaderEngineCount : UInt32 := 0
  maximumScratchWavesPerComputeUnit : UInt32 := 0
  xccCount : UInt32 := 0
  cwsrSize : UInt32 := 0
  controlStackSize : UInt32 := 0
  vendorId : UInt16 := 0
  deviceId : UInt16 := 0
  domain : UInt32 := 0
  locationId : UInt32 := 0
  drmRenderMinor : ℤ := -1
  localMemorySize : UInt64 := 0
  integrated : Bool := false
  name : String := ""
  architecture : GpuArchitecture := {}
  memoryBanks : List MemoryBank := []
  deriving DecidableEq

/-- `Node::is_gpu`. -/
def Node.isGpu (node : Node) : Bool := node.simdCount != 0

/-- `Node::compute_unit_count`. -/
def Node.computeUnitCount (node : Node) : UInt32 :=
  if node.simdPerComputeUnit = 0 ∨ node.simdCount % node.simdPerComputeUnit ≠ 0 then 0
  else node.simdCount / node.simdPerComputeUnit

end LightRocm.Topology
