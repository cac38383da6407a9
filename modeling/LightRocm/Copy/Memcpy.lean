import LightRocm.Copy.Kernel

/-!
# Synchronous copies of the direct KFD backend

`lr_memcpy` finds the allocations its arguments lie in, waits for the device
and then copies through the staging buffer, chunk by chunk. The direction of
the chunk loop depends on the overlap of two device ranges. The global lock is
held from the wait to the return, so the device runs nothing but these copies.
-/

namespace LightRocm.Copy

/-- An entry of the device allocation table, `LightRocrAllocationInfo`. -/
structure LightRocrAllocationInfo where
  /-- The device the memory belongs to. -/
  deviceIndex : ℕ
  /-- The size the caller asked for. -/
  requestedSize : ℕ
  /-- The allocation is being freed. -/
  destroying : Bool
  /-- The address the device uses. -/
  gpuAddress : ℕ

/-- An entry of the pinned host memory table, `LightRocrHostAllocationInfo`. -/
structure LightRocrHostAllocationInfo where
  /-- The device the memory is mapped for. -/
  deviceIndex : ℕ
  /-- The size the caller asked for. -/
  requestedSize : ℕ
  /-- The allocation is being freed. -/
  destroying : Bool

/-- The result of looking up a host pointer. -/
inductive LightRocrHostPointerLookup where
  | unregistered
  | valid (base : ℕ)
  | invalid
  deriving DecidableEq

/-- The tables a copy reads. Device pointers are device addresses, every live
range ends below `2 ^ 64` (the address reservation ends with a guard page), and
the staging buffer belongs to the runtime alone. -/
structure Heap where
  /-- `lr_init` has succeeded. -/
  initialized : Bool
  /-- Number of devices. -/
  deviceCount : ℕ
  /-- The device has been opened. -/
  opened : ℕ → Bool
  /-- Device allocations by pointer. -/
  allocations : List (ℕ × LightRocrAllocationInfo)
  /-- Pinned host allocations by pointer. -/
  hostAllocations : List (ℕ × LightRocrHostAllocationInfo)
  /-- Device address of the staging buffer. -/
  stagingGpu : ℕ
  /-- Size of the staging buffer. -/
  stagingSize : ℕ
  /-- The staging buffer is not empty. -/
  staging_pos : 0 < stagingSize
  /-- The staging buffer ends below `2 ^ 64`. -/
  staging_lt : stagingGpu + stagingSize < 2 ^ 64
  /-- `lr_malloc` hands out device addresses as pointers. -/
  pointer_eq : ∀ entry ∈ allocations, entry.1 = entry.2.gpuAddress
  /-- An allocation ends below `2 ^ 64`. -/
  allocation_lt : ∀ entry ∈ allocations, entry.1 + entry.2.requestedSize < 2 ^ 64
  /-- No allocation meets the staging buffer. -/
  staging_apart : ∀ entry ∈ allocations, entry.1 + entry.2.requestedSize ≤ stagingGpu ∨
    stagingGpu + stagingSize ≤ entry.1

/-- `find_light_rocr_allocation`: the first entry that holds the whole range. -/
def Heap.findLightRocrAllocation (heap : Heap) (address device size : ℕ) :
    Option (ℕ × LightRocrAllocationInfo) :=
  heap.allocations.find? fun (base, info) =>
    decide (info.deviceIndex = device) && !info.destroying && decide (base ≤ address) &&
      decide (address - base < info.requestedSize) &&
      decide (size ≤ info.requestedSize - (address - base))

/-- `translate_direct_kfd_device_pointer`; zero stands for no address. -/
def Heap.translateDirectKfdDevicePointer (heap : Heap) (address device size : ℕ) : ℕ :=
  match heap.findLightRocrAllocation address device size with
  | none => 0
  | some (base, info) =>
    if info.gpuAddress > 2 ^ 64 - 1 - (address - base) then 0
    else info.gpuAddress + (address - base)

/-- `translate_light_rocr_host_pointer`: the first entry the address lies in
decides. -/
def translateLightRocrHostPointer (address device size : ℕ) :
    List (ℕ × LightRocrHostAllocationInfo) → LightRocrHostPointerLookup
  | [] => .unregistered
  | (base, info) :: entries =>
    if address < base ∨ info.requestedSize ≤ address - base then
      translateLightRocrHostPointer address device size entries
    else if info.deviceIndex ≠ device ∨ info.destroying = true ∨
        info.requestedSize - (address - base) < size then .invalid
    else .valid base

/-- `pin_device` and `pin_host`: the allocation is still there and not being freed. -/
def pin {Info : Type} (destroying : Info → Bool) (entries : List (ℕ × Info)) (base : ℕ) : Bool :=
  match entries.find? fun entry => decide (entry.1 = base) with
  | none => false
  | some entry => !destroying entry.2

/-- The two memories a copy moves bytes between. -/
inductive Space where
  | host
  | device
  deriving DecidableEq

/-- The memory a copy reads. -/
def sourceSpace : MemcpyKind → Space
  | .hostToDevice => .host
  | .deviceToHost | .deviceToDevice => .device

/-- The memory a copy writes. -/
def destinationSpace : MemcpyKind → Space
  | .deviceToHost => .host
  | .hostToDevice | .deviceToDevice => .device

/-- One completed launch of the copy kernel. -/
structure Launch where
  /-- Number of bytes. -/
  size : ℕ
  /-- The offsets stored, in order. -/
  written : List ℕ

/-- The bytes of both memories and the copy kernels launched so far. -/
structure Memory where
  /-- The byte at an address. -/
  bytes : Space → ℕ → UInt8
  /-- The launches, in order. -/
  launches : List Launch

/-- What the queue and the device make of one copy dispatch. -/
structure Submission where
  /-- The status of `submit_direct_kfd_kernel_locked`. -/
  submitStatus : Status
  /-- The order in which the work-items take their iterations. -/
  order : List ℕ

/-- `std::memcpy` between the staging buffer and host memory. -/
def hostMemcpy (memory : Memory) (destinationSpace : Space) (destination : ℕ)
    (sourceSpace : Space) (source size : ℕ) : Memory :=
  { memory with
    bytes := fun space a =>
      if space = destinationSpace ∧ destination ≤ a ∧ a < destination + size then
        memory.bytes sourceSpace (source + (a - destination))
      else memory.bytes space a }

/-- `submit_direct_kfd_copy_locked` without an event: launch the kernel and wait
for the queue. The wait succeeds once the dispatch has completed, which is when
every work-item has left its loop. -/
def submitDirectKfdCopyLocked (submissions : ℕ → Submission) (memory : Memory)
    (destination source size : ℕ) : Status × Memory :=
  if size = 0 then (.invalidArgument, memory)
  else
    let submission := submissions memory.launches.length
    if submission.submitStatus ≠ .success then (submission.submitStatus, memory)
    else
      let args := copyArguments destination source size
      let items := workgroups size * kBlockSize
      let result := lrrtCopyBytes args items submission.order (memory.bytes .device)
      let after : Memory :=
        ⟨fun space => if space = .device then result.memory else memory.bytes space,
          memory.launches ++ [⟨size, result.written⟩]⟩
      (if args.finished items result then .success else .deviceFault, after)

/-- One chunk of a host-to-device copy. -/
def Heap.hostToDeviceChunk (heap : Heap) (submissions : ℕ → Submission)
    (deviceDestination hostSource offset chunk : ℕ) (memory : Memory) : Status × Memory :=
  submitDirectKfdCopyLocked submissions
    (hostMemcpy memory .device heap.stagingGpu .host (hostSource + offset) chunk)
    (u64 (deviceDestination + offset)) heap.stagingGpu chunk

/-- One chunk of a device-to-host copy. -/
def Heap.deviceToHostChunk (heap : Heap) (submissions : ℕ → Submission)
    (hostDestination deviceSource offset chunk : ℕ) (memory : Memory) : Status × Memory :=
  let staged := submitDirectKfdCopyLocked submissions memory heap.stagingGpu
    (u64 (deviceSource + offset)) chunk
  if staged.1 = .success then
    (.success, hostMemcpy staged.2 .host (hostDestination + offset) .device heap.stagingGpu chunk)
  else staged

/-- One chunk of a copy between overlapping device ranges. -/
def Heap.overlappingChunk (heap : Heap) (submissions : ℕ → Submission)
    (deviceDestination deviceSource offset chunk : ℕ) (memory : Memory) : Status × Memory :=
  let staged := submitDirectKfdCopyLocked submissions memory heap.stagingGpu
    (u64 (deviceSource + offset)) chunk
  if staged.1 = .success then
    submitDirectKfdCopyLocked submissions staged.2 (u64 (deviceDestination + offset))
      heap.stagingGpu chunk
  else staged

/-- The chunk loop from the start of the range to its end. Running out of fuel
is a loop that does not return. -/
def forwardChunks (stagingSize size : ℕ) (copyChunk : ℕ → ℕ → Memory → Status × Memory) :
    ℕ → ℕ → Memory → Option (Status × Memory)
  | fuel, offset, memory =>
    if size ≤ offset then some (.success, memory)
    else match fuel with
      | 0 => none
      | fuel + 1 =>
        let chunk := min (size - offset) stagingSize
        let result := copyChunk offset chunk memory
        if result.1 = .success then
          forwardChunks stagingSize size copyChunk fuel (offset + chunk) result.2
        else some result

/-- The chunk loop from the end of the range to its start. -/
def backwardChunks (stagingSize : ℕ) (copyChunk : ℕ → ℕ → Memory → Status × Memory) :
    ℕ → ℕ → Memory → Option (Status × Memory)
  | fuel, remaining, memory =>
    if remaining = 0 then some (.success, memory)
    else match fuel with
      | 0 => none
      | fuel + 1 =>
        let chunk := min remaining stagingSize
        let result := copyChunk (remaining - chunk) chunk memory
        if result.1 = .success then
          backwardChunks stagingSize copyChunk fuel (remaining - chunk) result.2
        else some result

/-- What the calls around the copy itself return. -/
structure MemcpyEnvironment where
  /-- The pin lists could be extended. -/
  pinsReserved : Bool
  /-- The status of `synchronize_direct_kfd_device`. -/
  initialSync : Status
  /-- The status of `ensure_direct_kfd_copy_state_locked`. -/
  copyState : Status
  /-- The outcome of each copy dispatch. -/
  submissions : ℕ → Submission

/-- The copy loops of `lr_memcpy`, once the addresses are known. -/
def Heap.copyRanges (heap : Heap) (submissions : ℕ → Submission) (kind : MemcpyKind)
    (dst src size : ℕ) (memory : Memory) : Option (Status × Memory) :=
  match kind with
  | .hostToDevice =>
    forwardChunks heap.stagingSize size (heap.hostToDeviceChunk submissions dst src) size 0 memory
  | .deviceToHost =>
    forwardChunks heap.stagingSize size (heap.deviceToHostChunk submissions dst src) size 0 memory
  | .deviceToDevice =>
    if ¬ (dst < u64 (src + size) ∧ src < u64 (dst + size)) then
      some (submitDirectKfdCopyLocked submissions memory dst src size)
    else if src < dst then
      backwardChunks heap.stagingSize (heap.overlappingChunk submissions dst src) size size memory
    else if dst < src then
      forwardChunks heap.stagingSize size (heap.overlappingChunk submissions dst src) size 0 memory
    else some (.success, memory)

/-- The address of one end of a copy and the allocation it is pinned by. A host
address is looked up only to refuse a range that leaves a pinned allocation. -/
def Heap.resolve (heap : Heap) (space : Space) (address device size : ℕ) : Option ℕ :=
  match space with
  | .device =>
    match heap.findLightRocrAllocation address device size with
    | none => none
    | some (base, _) =>
      let translated := heap.translateDirectKfdDevicePointer address device size
      if translated = 0 ∨ base = 0 ∨
          pin LightRocrAllocationInfo.destroying heap.allocations base = false then none
      else some translated
  | .host =>
    match translateLightRocrHostPointer address device size heap.hostAllocations with
    | .invalid => none
    | .valid base =>
      if pin LightRocrHostAllocationInfo.destroying heap.hostAllocations base = false then none
      else some address
    | .unregistered => some address

/-- `lr_memcpy` of the direct KFD backend. -/
def Heap.lrMemcpy (heap : Heap) (env : MemcpyEnvironment) (device dst src size : ℕ)
    (kind : MemcpyKind) (memory : Memory) : Option (Status × Memory) :=
  if heap.initialized = false then some (.notInitialized, memory)
  else if heap.deviceCount ≤ device ∨ dst = 0 ∨ src = 0 ∨ size = 0 then
    some (.invalidArgument, memory)
  else if heap.opened device = false then some (.invalidArgument, memory)
  else
    match heap.resolve (destinationSpace kind) dst device size,
        heap.resolve (sourceSpace kind) src device size with
    | some destination, some source =>
      if env.pinsReserved = false then some (.invalidArgument, memory)
      else if env.initialSync ≠ .success then some (env.initialSync, memory)
      else if env.copyState ≠ .success then some (env.copyState, memory)
      else if heap.stagingGpu = 0 then some (.runtime, memory)
      else heap.copyRanges env.submissions kind destination source size memory
    | _, _ => some (.invalidArgument, memory)

end LightRocm.Copy
