import LightRocm.Status
import Mathlib.Data.Nat.Bitwise

/-!
# AQL packets

The kernel-dispatch and barrier-AND packets of `aql_producer.hpp`, how they are
built and checked. A signal handle is a signal of any type; no handle stands for
the null handle.
-/

namespace LightRocm.Aql

/-- Packet type of a kernel dispatch. -/
def kAqlPacketTypeKernelDispatch : ℕ := 2

/-- Packet type of a barrier-AND packet. -/
def kAqlPacketTypeBarrierAnd : ℕ := 3

/-- Fences reach the whole system. -/
def kAqlFenceScopeSystem : ℕ := 2

/-- Position of the barrier bit in a header. -/
def kAqlPacketHeaderBarrierShift : ℕ := 8

/-- Position of the acquire fence scope in a header. -/
def kAqlPacketHeaderAcquireFenceScopeShift : ℕ := 9

/-- Position of the release fence scope in a header. -/
def kAqlPacketHeaderReleaseFenceScopeShift : ℕ := 11

/-- The header of a kernel dispatch without the barrier bit. -/
def kAqlKernelDispatchHeader : ℕ :=
  kAqlPacketTypeKernelDispatch |||
    (kAqlFenceScopeSystem <<< kAqlPacketHeaderAcquireFenceScopeShift) |||
    (kAqlFenceScopeSystem <<< kAqlPacketHeaderReleaseFenceScopeShift)

/-- The header of a barrier-AND packet; the barrier bit is always set. -/
def kAqlBarrierAndHeader : ℕ :=
  kAqlPacketTypeBarrierAnd ||| (1 <<< kAqlPacketHeaderBarrierShift) |||
    (kAqlFenceScopeSystem <<< kAqlPacketHeaderAcquireFenceScopeShift) |||
    (kAqlFenceScopeSystem <<< kAqlPacketHeaderReleaseFenceScopeShift)

/-- The arguments of a dispatch, `AqlKernelDispatchParameters`. -/
structure AqlKernelDispatchParameters (Sig : Type) where
  /-- Grid size in each dimension. -/
  gridSizeX : ℕ
  gridSizeY : ℕ
  gridSizeZ : ℕ
  /-- Workgroup size in each dimension. -/
  workgroupSizeX : ℕ
  workgroupSizeY : ℕ
  workgroupSizeZ : ℕ
  /-- Scratch memory of a work-item. -/
  privateSegmentSize : ℕ
  /-- Shared memory of a workgroup. -/
  groupSegmentSize : ℕ
  /-- Address of the kernel descriptor. -/
  kernelObject : ℕ
  /-- Address of the kernel arguments. -/
  kernargAddress : ℕ
  /-- The signal the completion decrements. -/
  completionSignal : Option Sig

/-- Why a submission failed, `AqlSubmitError`. -/
inductive AqlSubmitError where
  | none
  | invalidPacket
  | invalidQueue
  | queueFull
  | reserveFailed
  deriving DecidableEq

/-- What a dispatch has to wait for, `AqlDispatchOrdering`. -/
structure AqlDispatchOrdering where
  /-- Dispatches of the queue the runtime still tracks. -/
  pendingDispatchCount : ℕ
  /-- Barrier packets stand before the dispatch. -/
  hasPendingDependencies : Bool

/-- A kernel-dispatch packet, `AqlKernelDispatchPacket`. -/
structure AqlKernelDispatchPacket (Sig : Type) where
  /-- Packet type, barrier bit and fences. -/
  header : ℕ
  /-- Number of dimensions. -/
  setup : ℕ
  /-- The remaining fields are the parameters. -/
  parameters : AqlKernelDispatchParameters Sig

/-- The arguments of a barrier-AND packet, `AqlBarrierAndParameters`. The packet
has five dependency slots. -/
structure AqlBarrierAndParameters (Sig : Type) where
  /-- The signals to wait for. -/
  dependencySignals : List Sig
  /-- A packet has five slots. -/
  length_le : dependencySignals.length ≤ 5
  /-- The signal the completion decrements. -/
  completionSignal : Option Sig

/-- A barrier-AND packet, `AqlBarrierAndPacket`. -/
structure AqlBarrierAndPacket (Sig : Type) where
  /-- Packet type, barrier bit and fences. -/
  header : ℕ
  /-- The remaining fields are the parameters. -/
  parameters : AqlBarrierAndParameters Sig

/-- The queue a producer submits to, `AqlQueueProducerOps`. -/
structure AqlQueueProducerOps (Sig : Type) where
  /-- The hardware queue, if there is one. -/
  ring : Option ℕ
  /-- The number of slots of the ring, a power of two. -/
  packetCount : ℕ
  /-- The write index can be advanced. -/
  reservable : Bool
  /-- The transport's own check of a dispatch. -/
  validatePacket : AqlKernelDispatchPacket Sig → Bool

variable {Sig : Type}

/-- `dispatch_dimensions`. -/
def dispatchDimensions (parameters : AqlKernelDispatchParameters Sig) : ℕ :=
  dimensionsOf parameters.gridSizeY parameters.gridSizeZ parameters.workgroupSizeY
    parameters.workgroupSizeZ

/-- `wait_for_dependencies` in `build_aql_kernel_dispatch_packet`. -/
def AqlDispatchOrdering.waitForDependencies (ordering : AqlDispatchOrdering) : Bool :=
  decide (ordering.pendingDispatchCount ≠ 0) || ordering.hasPendingDependencies

/-- `build_aql_kernel_dispatch_packet`. -/
def buildAqlKernelDispatchPacket (parameters : AqlKernelDispatchParameters Sig)
    (ordering : AqlDispatchOrdering) : AqlKernelDispatchPacket Sig where
  header := kAqlKernelDispatchHeader |||
    (if ordering.waitForDependencies then 1 <<< kAqlPacketHeaderBarrierShift else 0)
  setup := dispatchDimensions parameters
  parameters := parameters

/-- `valid_aql_kernel_dispatch_packet`. -/
def validAqlKernelDispatchPacket (packet : AqlKernelDispatchPacket Sig) : Bool :=
  let p := packet.parameters
  let dimensions := packet.setup
  decide (packet.header = kAqlKernelDispatchHeader ∨
      packet.header = kAqlKernelDispatchHeader ||| (1 <<< kAqlPacketHeaderBarrierShift)) &&
    decide (1 ≤ dimensions ∧ dimensions ≤ 3) &&
    decide (p.workgroupSizeX ≠ 0 ∧ p.workgroupSizeY ≠ 0 ∧ p.workgroupSizeZ ≠ 0) &&
    decide (dimensions < 2 → p.workgroupSizeY = 1) &&
    decide (dimensions < 3 → p.workgroupSizeZ = 1) &&
    decide (p.workgroupSizeX ≤ p.gridSizeX ∧ p.workgroupSizeY ≤ p.gridSizeY ∧
      p.workgroupSizeZ ≤ p.gridSizeZ) &&
    decide (dimensions < 2 → p.gridSizeY = 1) &&
    decide (dimensions < 3 → p.gridSizeZ = 1) &&
    decide (p.kernelObject ≠ 0)

/-- `build_aql_barrier_and_packet`. -/
def buildAqlBarrierAndPacket (parameters : AqlBarrierAndParameters Sig) :
    AqlBarrierAndPacket Sig where
  header := kAqlBarrierAndHeader
  parameters := parameters

end LightRocm.Aql
