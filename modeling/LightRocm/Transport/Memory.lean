import LightRocm.Lib.Alignment
import LightRocm.Status
import LightRocm.Transport.Kernel

/-!
# Memory of the KFD transport

Allocation, mapping and release of buffers, from `transport/kfd/memory.cpp`. Every
function that can fail half way returns an allocation that still owns what it has
acquired. The session is open and the system calls are those of the kernel; the
number and the text of a system error are left out of the messages.
-/

namespace LightRocm.Transport

open Alignment (alignUp)

/-- `MemoryError`, for the failures. -/
inductive MemoryError where
  | invalidSession
  | invalidNode
  | invalidSize
  | allocateState
  | acquireVm
  | reserveVa
  | setScratchBacking
  | allocateMemory
  | allocateScratch
  | scratchPoolExhausted
  | mapHost
  | adviseDontFork
  | mapToGpu
  | unmapFromGpu
  | unmapHost
  | freeMemory
  deriving DecidableEq

/-- A failure. -/
structure MemoryFailure where
  error : MemoryError
  message : String
  deriving DecidableEq

/-- `MemoryStatus`: nothing, or a failure. -/
abbrev MemoryStatus : Type := Option MemoryFailure

/-- `system_failure`. -/
def systemFailure (error : MemoryError) (operation : String) : MemoryStatus :=
  some ⟨error, operation ++ " failed"⟩

/-- The message of a failure whose clean-up fails too. -/
def withCleanup (failure : MemoryFailure) : MemoryStatus → MemoryFailure
  | none => failure
  | some cleanup =>
    { failure with message := failure.message ++ "; cleanup failed: " ++ cleanup.message }

/-- `kVramAllocationGranule`. -/
def vramAllocationGranule : UInt64 := 2 * 1024 * 1024

/-- `kGuardPageCount`. -/
def guardPageCount : UInt64 := 2

/-- `numeric_limits<off_t>::max()`. -/
def maximumOffset : UInt64 := 0x7fffffffffffffff

/-- `ProcessAperture`, as far as it is used. -/
structure ProcessAperture where
  gpuId : ℕ
  gpuvmBase : UInt64
  gpuvmLimit : UInt64

/-- `RawMemoryAllocation`. -/
structure RawMemoryAllocation where
  reservationAddress : Option UInt64 := none
  reservationSize : UInt64 := 0
  hostAddress : Option UInt64 := none
  gpuAddress : UInt64 := 0
  size : UInt64 := 0
  handle : ℕ := 0
  gpuIds : List ℕ := []
  mappedDeviceCount : ℕ := 0
  unmappedDeviceCount : ℕ := 0
  mapComplete : Bool := false

/-- `MemoryAllocationUsage`. -/
inductive MemoryAllocationUsage where
  | general
  | vram
  | deviceVram
  | executable
  | trapHandler
  | aqlRing
  | doorbell
  | eop
  deriving DecidableEq

variable (usage : MemoryAllocationUsage)

/-- `uses_vram_backing`. -/
def usesVramBacking : Bool :=
  decide (usage = .vram ∨ usage = .deviceVram ∨ usage = .executable)

/-- The check of the device list in `map_memory`, one identifier after the other. -/
def checkGpuIds : List ℕ → List ℕ → MemoryStatus
  | _, [] => none
  | previous, gpuId :: rest =>
    if gpuId = 0 then
      some ⟨.invalidNode, "KFD memory GPU mapping received an invalid zero GPU ID"⟩
    else if gpuId ∈ previous then
      some ⟨.invalidNode, "KFD memory GPU mapping received a duplicate GPU ID"⟩
    else checkGpuIds (previous ++ [gpuId]) rest

/-- `map_memory`. -/
def mapMemory (gpuIds : List ℕ) (allocation : RawMemoryAllocation) :
    Calls (MemoryStatus × RawMemoryAllocation) := do
  if allocation.handle = 0 then
    return (some ⟨.invalidSession, "KFD memory GPU mapping requires an allocated KFD buffer"⟩,
      allocation)
  else if gpuIds = [] ∨ 2 ^ 32 - 1 < gpuIds.length then
    return (some ⟨.invalidNode, "KFD memory GPU mapping requires at least one GPU ID"⟩, allocation)
  else if checkGpuIds [] gpuIds ≠ none then return (checkGpuIds [] gpuIds, allocation)
  else
    let stated ← if allocation.gpuIds = [] then succeeds else pure true
    if stated = false then
      return (some ⟨.allocateState, "failed to allocate KFD memory GPU mapping state"⟩, allocation)
    else if allocation.gpuIds ≠ [] ∧ (allocation.gpuIds ≠ gpuIds ∨
        allocation.unmappedDeviceCount ≠ 0) then
      return (some ⟨.mapToGpu,
        "KFD memory GPU mapping retry does not match the pending mapping"⟩, allocation)
    else
      let allocation := { allocation with gpuIds := gpuIds }
      let deviceCount := gpuIds.length
      if deviceCount < allocation.mappedDeviceCount then
        return (some ⟨.mapToGpu, "KFD memory GPU mapping retained invalid progress"⟩, allocation)
      else if allocation.mappedDeviceCount = deviceCount ∧ allocation.mapComplete = true then
        return (none, allocation)
      else
        let previousSuccess := allocation.mappedDeviceCount
        let allocation := { allocation with mapComplete := false }
        let (success, succeeded) ←
          mapMemoryToGpu allocation.handle gpuIds deviceCount previousSuccess
        if deviceCount < success then
          return (some ⟨.mapToGpu, "AMDKFD_IOC_MAP_MEMORY_TO_GPU returned invalid progress"⟩,
            { allocation with mappedDeviceCount := deviceCount })
        else if success < previousSuccess then
          return (some ⟨.mapToGpu,
            "AMDKFD_IOC_MAP_MEMORY_TO_GPU returned non-monotonic progress"⟩, allocation)
        else
          let allocation := { allocation with mappedDeviceCount := success }
          if succeeded = false then
            return (systemFailure .mapToGpu "AMDKFD_IOC_MAP_MEMORY_TO_GPU(memory)", allocation)
          else if success ≠ deviceCount then
            return (some ⟨.mapToGpu,
              "AMDKFD_IOC_MAP_MEMORY_TO_GPU completed without mapping every GPU"⟩, allocation)
          else return (none, { allocation with mapComplete := true })

/-- `unmap_memory`. -/
def unmapMemory (owner : Name) (allocation : RawMemoryAllocation) :
    Calls (MemoryStatus × RawMemoryAllocation) := do
  if allocation.mappedDeviceCount = 0 then
    return (none, { allocation with gpuIds := [], unmappedDeviceCount := 0, mapComplete := false })
  else if allocation.handle = 0 then
    return (some ⟨.invalidSession, "KFD memory GPU unmapping requires an allocated KFD buffer"⟩,
      allocation)
  else if allocation.gpuIds.length < allocation.mappedDeviceCount ∨
      allocation.mappedDeviceCount < allocation.unmappedDeviceCount then
    return (some ⟨.unmapFromGpu, "KFD memory GPU unmapping retained invalid progress"⟩, allocation)
  else
    let previousSuccess := allocation.unmappedDeviceCount
    let (success, succeeded) ← unmapMemoryFromGpu owner allocation.handle allocation.gpuIds
      allocation.mappedDeviceCount previousSuccess
    if allocation.mappedDeviceCount < success then
      return (some ⟨.unmapFromGpu, "AMDKFD_IOC_UNMAP_MEMORY_FROM_GPU returned invalid progress"⟩,
        allocation)
    else if success < previousSuccess then
      return (some ⟨.unmapFromGpu,
        "AMDKFD_IOC_UNMAP_MEMORY_FROM_GPU returned non-monotonic progress"⟩, allocation)
    else
      let allocation := { allocation with unmappedDeviceCount := success }
      if succeeded = false then
        return (systemFailure .unmapFromGpu "AMDKFD_IOC_UNMAP_MEMORY_FROM_GPU(memory)", allocation)
      else if success ≠ allocation.mappedDeviceCount then
        return (some ⟨.unmapFromGpu,
          "AMDKFD_IOC_UNMAP_MEMORY_FROM_GPU completed without unmapping every GPU"⟩, allocation)
      else return (none, { allocation with
        gpuIds := [], mappedDeviceCount := 0, unmappedDeviceCount := 0, mapComplete := false })

/-- The end of `release_memory`: free the buffer. -/
def freeBuffer (owner : Name) (allocation : RawMemoryAllocation) :
    Calls (MemoryStatus × RawMemoryAllocation) := do
  if allocation.handle = 0 then return (none, {})
  else
    let freed ← freeMemoryOfGpu owner allocation.handle
    if freed = false then
      return (systemFailure .freeMemory "AMDKFD_IOC_FREE_MEMORY_OF_GPU(memory)", allocation)
    else return (none, {})

/-- `release_memory`. -/
def releaseMemory (owner : Name) (allocation : RawMemoryAllocation) :
    Calls (MemoryStatus × RawMemoryAllocation) := do
  if allocation.reservationAddress = none ∧ allocation.handle = 0 then return (none, allocation)
  else
    match ← unmapMemory owner allocation with
    | (some failure, allocation) => return (some failure, allocation)
    | (none, allocation) =>
      match allocation.reservationAddress with
      | none => freeBuffer owner allocation
      | some address =>
        let unmapped ← munmap .reservation owner address allocation.reservationSize
        if unmapped = false then
          return (systemFailure .unmapHost "munmap(KFD memory host mapping)", allocation)
        else freeBuffer owner { allocation with
          reservationAddress := none, reservationSize := 0, hostAddress := none }

/-- `rollback_memory`. -/
def rollbackMemory (owner : Name) (failure : MemoryFailure) (allocation : RawMemoryAllocation) :
    Calls (MemoryStatus × RawMemoryAllocation) := do
  let (cleanup, allocation) ← releaseMemory owner allocation
  return (some (withCleanup failure cleanup), allocation)

/-- The size of the buffer of an allocation: the driver reserves a second span for a ring. -/
def backingSize (size : UInt64) : UInt64 :=
  if usage = .aqlRing then size * 2 else size

/-- Room to align a buffer in video memory. -/
def alignmentSlack : UInt64 :=
  if usesVramBacking usage then vramAllocationGranule else 0

/-- The size checks of `allocate_memory`. -/
def checkSize (size : UInt64) : MemoryStatus :=
  if size = 0 ∨ size % memoryPageSize ≠ 0 ∨ (usage = .aqlRing ∧ maximumWord / 2 < size) then
    some ⟨.invalidSize, "KFD memory allocation size must be a non-zero multiple of 4096 bytes"⟩
  else if maximumWord - guardPageCount * memoryPageSize - alignmentSlack usage <
      backingSize usage size then
    some ⟨.invalidSize, "KFD memory allocation plus guard pages exceeds the address range"⟩
  else none

/-- The size of the reservation: the buffer, two guard pages and the room to align it. -/
def reservationSize (size : UInt64) : UInt64 :=
  backingSize usage size + guardPageCount * memoryPageSize + alignmentSlack usage

/-- Aligning the address would leave the address range. -/
def addressOverflows (reservation : UInt64) : Bool :=
  decide (maximumWord - memoryPageSize -
    (if usesVramBacking usage then vramAllocationGranule - 1 else 0) < reservation)

/-- The address of the buffer within the reservation. -/
def bufferAddress (reservation : UInt64) : UInt64 :=
  if usesVramBacking usage then alignUp (reservation + memoryPageSize) vramAllocationGranule
  else reservation + memoryPageSize

/-- The buffer leaves the address range or the aperture of the GPU. -/
def outsideAperture (aperture : ProcessAperture) (address size : UInt64) : Bool :=
  decide (maximumWord - (size - 1) < address) || decide (address < aperture.gpuvmBase) ||
    decide (aperture.gpuvmLimit < address + size - 1)

/-- Fail with the message of a system call and roll back. -/
def rollbackSystem (owner : Name) (error : MemoryError) (operation : String)
    (allocation : RawMemoryAllocation) : Calls (MemoryStatus × RawMemoryAllocation) :=
  rollbackMemory owner ⟨error, operation ++ " failed"⟩ allocation

/-- The end of `allocate_memory`: advise the kernel and map the buffer on the device. -/
def finishAllocation (owner : Name) (usage : MemoryAllocationUsage)
    (allocation : RawMemoryAllocation) : Calls (MemoryStatus × RawMemoryAllocation) := do
  let advised ← succeeds
  if advised = false then
    rollbackSystem owner .adviseDontFork "madvise(MADV_DONTFORK)" allocation
  else if usage = .doorbell then return (none, allocation)
  else
    match ← mapMemory allocation.gpuIds allocation with
    | (some failure, allocation) => rollbackMemory owner failure allocation
    | (none, allocation) => return (none, allocation)

/-- The middle of `allocate_memory`: the buffer of the driver, mapped for the host. -/
def bufferInReservation (owner : Name) (usage : MemoryAllocationUsage)
    (allocation : RawMemoryAllocation) : Calls (MemoryStatus × RawMemoryAllocation) := do
  match ← allocMemoryOfGpu owner with
  | none =>
    rollbackSystem owner .allocateMemory "AMDKFD_IOC_ALLOC_MEMORY_OF_GPU(memory)" allocation
  | some (0, _) =>
    rollbackMemory owner
      ⟨.allocateMemory, "KFD returned an invalid zero KFD memory handle"⟩ allocation
  | some (handle, mmapOffset) =>
    let allocation := { allocation with handle := handle }
    if usage = .doorbell then
      finishAllocation owner usage { allocation with hostAddress := some allocation.gpuAddress }
    else if usage = .deviceVram then finishAllocation owner usage allocation
    else if maximumOffset < mmapOffset then
      rollbackMemory owner ⟨.mapHost,
        "KFD returned a KFD memory mmap offset outside the host off_t range"⟩ allocation
    else
      let mapped ← mmapFixed owner allocation.gpuAddress allocation.size
      if mapped = false then
        rollbackSystem owner .mapHost "mmap(KFD memory render-node mapping)" allocation
      else
        finishAllocation owner usage { allocation with hostAddress := some allocation.gpuAddress }

/-- `allocate_memory`. -/
def allocateMemory (owner : Name) (aperture : ProcessAperture) (size : UInt64)
    (usage : MemoryAllocationUsage) : Calls (MemoryStatus × RawMemoryAllocation) := do
  if aperture.gpuId = 0 then
    return (some ⟨.invalidSession, "KFD memory allocation requires an acquired KFD VM"⟩, {})
  else if checkSize usage size ≠ none then return (checkSize usage size, {})
  else
    let stated ← succeeds
    if stated = false then
      return (some ⟨.allocateState, "failed to allocate KFD memory GPU mapping state"⟩, {})
    else
      match ← mmap owner (reservationSize usage size) with
      | none => return (systemFailure .reserveVa "mmap(KFD memory address reservation)", {})
      | some reservation =>
        let allocation : RawMemoryAllocation :=
          { reservationAddress := some reservation
            reservationSize := reservationSize usage size
            size := size
            gpuIds := [aperture.gpuId] }
        if addressOverflows usage reservation then
          rollbackMemory owner
            ⟨.reserveVa, "reserved CPU VA overflows the host address range"⟩ allocation
        else
          let address := bufferAddress usage reservation
          let allocation := { allocation with gpuAddress := address }
          if outsideAperture aperture address (backingSize usage size) then
            rollbackMemory owner
              ⟨.reserveVa, "reserved CPU VA is outside the KFD GPUVM aperture"⟩ allocation
          else bufferInReservation owner usage allocation

variable (allocation : RawMemoryAllocation)

/-- `MemoryAllocation::gpu_mapped`, and of `HostMemoryAllocation`. -/
def RawMemoryAllocation.gpuMapped : Bool :=
  allocation.mapComplete && !allocation.gpuIds.isEmpty &&
    decide (allocation.mappedDeviceCount = allocation.gpuIds.length) &&
    decide (allocation.unmappedDeviceCount = 0)

/-- The address a buffer shows, `MemoryAllocation::gpu_address`. -/
def RawMemoryAllocation.shownAddress : UInt64 :=
  if allocation.gpuMapped then allocation.gpuAddress else 0

end LightRocm.Transport
