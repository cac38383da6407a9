import LightRocm.Lib.BinarySearch
import LightRocm.Lib.ByteMemory
import LightRocm.Loader.CodeObject
import LightRocm.Runtime.Launch

/-!
# The argument bytes of a launch

How `submit_direct_kfd_kernel_impl_locked` finds a slice for the arguments of a kernel
and fills it: the bytes of the caller, zeros, and the hidden arguments. Slices are cut
from the arenas of the queue and used again when their dispatch has retired, so they
hold what earlier launches left there.
-/

namespace LightRocm.KernargSegment

open ByteMemory Launch Loader

/-! ## Hidden arguments -/

variable (config : LaunchConfig)

/-- `dispatch_dimensions`. -/
def dispatchDimensions : UInt16 :=
  .ofNat (dimensionsOf config.grid.y.toNat config.grid.z.toNat config.block.y.toNat
    config.block.z.toNat)

/-- The bytes of a `uint32_t`. -/
def bytesOfU32 (value : UInt32) : List UInt8 :=
  [value.toUInt8, (value >>> 8).toUInt8, (value >>> 16).toUInt8, (value >>> 24).toUInt8]

/-- The bytes of a `uint16_t`. -/
def bytesOfU16 (value : UInt16) : List UInt8 := [value.toUInt8, (value >>> 8).toUInt8]

/-- The `switch` of `populate_light_rocr_hidden_kernargs`: the value of an argument that is
filled in. -/
def hiddenValue : KernelArgumentKind → Option (List UInt8)
  | .hiddenBlockCountX => some (bytesOfU32 (config.grid.x / config.block.x))
  | .hiddenBlockCountY => some (bytesOfU32 (config.grid.y / config.block.y))
  | .hiddenBlockCountZ => some (bytesOfU32 (config.grid.z / config.block.z))
  | .hiddenGroupSizeX => some (bytesOfU16 config.block.x.toUInt16)
  | .hiddenGroupSizeY => some (bytesOfU16 config.block.y.toUInt16)
  | .hiddenGroupSizeZ => some (bytesOfU16 config.block.z.toUInt16)
  | .hiddenRemainderX => some (bytesOfU16 (config.grid.x % config.block.x).toUInt16)
  | .hiddenRemainderY => some (bytesOfU16 (config.grid.y % config.block.y).toUInt16)
  | .hiddenRemainderZ => some (bytesOfU16 (config.grid.z % config.block.z).toUInt16)
  | .hiddenGridDims => some (bytesOfU16 (dispatchDimensions config))
  | .hiddenDynamicLdsSize => some (bytesOfU32 config.sharedMemoryBytes)
  | _ => none

/-- `write_argument`, with the bytes of the value. -/
def writeArgument (bytes bufferSize : ℕ) (argument : KernelArgumentInfo) (value : List UInt8)
    (memory : Memory) : Bool × Memory :=
  if argument.size ≠ value.length ∨ bufferSize < argument.offset ∨
      bufferSize - argument.offset < argument.size then (false, memory)
  else (true, write memory (bytes + argument.offset) value)

/-- The loop of `populate_light_rocr_hidden_kernargs`. -/
def writeHidden (config : LaunchConfig) (bytes kernargSize : ℕ) :
    List KernelArgumentInfo → Memory → Bool × Memory
  | [], memory => (true, memory)
  | argument :: rest, memory =>
    match hiddenValue config argument.kind with
    | none => writeHidden config bytes kernargSize rest memory
    | some value =>
      match writeArgument bytes kernargSize argument value memory with
      | (false, memory) => (false, memory)
      | (true, memory) => writeHidden config bytes kernargSize rest memory

/-- The sizes `populate_light_rocr_hidden_kernargs` refuses. -/
def refusedConfig : Bool :=
  config.grid.x = 0 ∨ config.grid.y = 0 ∨ config.grid.z = 0 ∨
    config.block.x = 0 ∨ config.block.y = 0 ∨ config.block.z = 0 ∨
    kUint16Max < config.block.x ∨ kUint16Max < config.block.y ∨ kUint16Max < config.block.z ∨
    config.grid.x < config.block.x ∨ config.grid.y < config.block.y ∨ config.grid.z < config.block.z

/-- `populate_light_rocr_hidden_kernargs` with the loop started at a given argument; the null
pointer is address zero. -/
def populateFrom (firstHidden : ℕ) (kernel : KernelInfo) (config : LaunchConfig)
    (kernarg kernargSize : ℕ) (memory : Memory) : Bool × Memory :=
  if kernargSize < kernel.kernargSize ∨ (kernel.kernargSize ≠ 0 ∧ kernarg = 0) ∨
      refusedConfig config = true then (false, memory)
  else writeHidden config kernarg kernargSize (kernel.arguments.drop firstHidden) memory

/-- The `std::lower_bound` of `populate_light_rocr_hidden_kernargs`. -/
def firstHidden (kernel : KernelInfo) : ℕ :=
  BinarySearch.lowerBound
    (fun index => (kernel.arguments[index]?).any fun argument =>
      argument.offset < kernel.explicitArgumentSize) 0 kernel.arguments.length

/-- `populate_light_rocr_hidden_kernargs`. -/
def populateLightRocrHiddenKernargs (kernel : KernelInfo) (config : LaunchConfig)
    (kernarg kernargSize : ℕ) (memory : Memory) : Bool × Memory :=
  populateFrom (firstHidden kernel) kernel config kernarg kernargSize memory

/-! ## The argument buffer -/

/-- `KernargBufferError`, without the ones these functions do not give. -/
inductive KernargBufferError where
  | invalidKernelMetadata
  | invalidArguments
  | argumentSizeExceeded
  | invalidDestination
  | destinationTooSmall
  | unsupportedAlignment
  | misalignedGpuAddress
  | gpuAddressOverflow
  deriving DecidableEq

/-- `KernargBufferRequirementsResult` of a request that is accepted. -/
structure KernargBufferRequirements where
  storageSize : ℕ
  alignment : ℕ

/-- `kAmdKernargMinimumAlignment`. -/
def kAmdKernargMinimumAlignment : ℕ := 16

/-- `validate_kernarg_request`, behind `kernarg_buffer_requirements`. -/
def kernargBufferRequirements (kernel : KernelInfo) (arguments argumentsSize : ℕ) :
    Except KernargBufferError KernargBufferRequirements :=
  if isPowerOfTwo kernel.kernargAlignment = false ∨
      kernel.kernargAlignment < kAmdKernargMinimumAlignment then .error .invalidKernelMetadata
  else if argumentsSize ≠ 0 ∧ arguments = 0 then .error .invalidArguments
  else if kernel.kernargSize < argumentsSize then .error .argumentSizeExceeded
  else .ok ⟨kernel.kernargSize, kernel.kernargAlignment⟩

/-- `materialize_kernarg_buffer`: the address of the buffer for the GPU, and the memory. -/
def materializeKernargBuffer (requirements : KernargBufferRequirements)
    (arguments argumentsSize destination destinationSize gpuAddress : ℕ) (memory : Memory) :
    Except KernargBufferError (ℕ × Memory) :=
  if argumentsSize ≠ 0 ∧ arguments = 0 then .error .invalidArguments
  else if requirements.storageSize < argumentsSize then .error .argumentSizeExceeded
  else if requirements.storageSize = 0 then
    if destination ≠ 0 ∨ destinationSize ≠ 0 ∨ gpuAddress ≠ 0 then .error .invalidDestination
    else .ok (0, memory)
  else if destination = 0 then .error .invalidDestination
  else if destinationSize < requirements.storageSize then .error .destinationTooSmall
  else if gpuAddress = 0 ∨ gpuAddress % requirements.alignment ≠ 0 then
    .error .misalignedGpuAddress
  else if 2 ^ 64 - 1 - requirements.storageSize < gpuAddress then .error .gpuAddressOverflow
  else
    let memory := write memory destination (read memory arguments argumentsSize)
    let memory := write memory (destination + argumentsSize)
      (List.replicate (requirements.storageSize - argumentsSize) 0)
    .ok (gpuAddress, memory)

/-! ## Slices -/

/-- `KernargArena`: its memory for the host and for the GPU, and how much of it is given away. -/
structure KernargArena where
  hostAddress : ℕ
  gpuAddress : ℕ
  size : ℕ
  used : ℕ
  deriving DecidableEq

/-- `KernargSlice`; the arena is given by its index. -/
structure KernargSlice where
  arena : Option ℕ := none
  offset : ℕ := 0
  size : ℕ := 0

/-- The part of a queue that has to do with argument buffers. Each dispatch object has a slice:
those of the pending dispatches and of the available ones. -/
structure KernargQueue where
  arenas : List KernargArena
  pending : List KernargSlice
  available : List KernargSlice
  memory : Memory

/-- `KernargSlice::host_address`. -/
def KernargSlice.hostAddress (slice : KernargSlice) (arenas : List KernargArena) : ℕ :=
  match slice.arena.bind (arenas[·]?) with
  | none => 0
  | some arena => arena.hostAddress + slice.offset

/-- `KernargSlice::gpu_address`. -/
def KernargSlice.gpuAddress (slice : KernargSlice) (arenas : List KernargArena) : ℕ :=
  match slice.arena.bind (arenas[·]?) with
  | none => 0
  | some arena => arena.gpuAddress + slice.offset

/-- What the other parts of a launch decide. -/
structure Surroundings where
  /-- The completion event is refused. -/
  eventRefused : Bool
  /-- The queue gets scratch memory, and room for the packets. -/
  scratch : Status
  capacity : Status
  /-- There is memory for the lists of the barriers, and for the lists of the queue. -/
  barrierRoom : Bool
  queueRoom : Bool
  /-- How many dispatches `reap_completed_direct_kfd_dispatches_locked` retires, and its status. -/
  reaped : ℕ
  reapStatus : Status
  /-- The addresses of a new arena. -/
  arena : Option (ℕ × ℕ)
  /-- A signal and a dispatch object can be made. -/
  object : Bool
  /-- The completion event can be recorded. -/
  recorded : Bool
  /-- What comes of the packets. -/
  submitted : Aql.AqlSubmitError

/-- `kDirectKfdKernargArenaSize`. -/
def kDirectKfdKernargArenaSize : ℕ := 8 * 1024 * 1024

/-- The index of the available object a launch takes: the last one with enough space. -/
def findReusable (allocationSize : ℕ) (available : List KernargSlice) : Option ℕ :=
  (available.reverse.findIdx? fun slice =>
    allocationSize = 0 ∨ (slice.arena.isSome ∧ allocationSize ≤ slice.size)).map
      fun index => available.length - 1 - index

/-- `allocate_direct_kfd_kernarg_locked`. -/
def allocateKernarg (size : ℕ) (around : Surroundings) (queue : KernargQueue) :
    Option (KernargSlice × KernargQueue) :=
  if size = 0 then some ({}, queue)
  else
    match queue.arenas.findIdx? fun arena => size ≤ arena.size - arena.used with
    | some index =>
      match queue.arenas[index]? with
      | none => none
      | some arena =>
        some (⟨some index, arena.used, size⟩, { queue with
          arenas := queue.arenas.set index { arena with used := arena.used + size } })
    | none =>
      match around.arena with
      | none => none
      | some (hostAddress, gpuAddress) =>
        some (⟨some queue.arenas.length, 0, size⟩, { queue with
          arenas := queue.arenas ++
            [⟨hostAddress, gpuAddress, max kDirectKfdKernargArenaSize size, size⟩] })

/-- `rollback_direct_kfd_kernarg_locked`. -/
def rollbackKernarg (slice : KernargSlice) (queue : KernargQueue) : KernargQueue :=
  match slice.arena with
  | none => queue
  | some index =>
    match queue.arenas[index]? with
    | none => queue
    | some arena =>
      if slice.offset + slice.size = arena.used then
        { queue with arenas := queue.arenas.set index { arena with used := slice.offset } }
      else queue

/-- The first pending dispatches retire. -/
def reap (count : ℕ) (queue : KernargQueue) : KernargQueue :=
  { queue with
    pending := queue.pending.drop count
    available := queue.available ++ queue.pending.take count }

/-- An object is taken from the available ones; the last one takes its place. -/
def takeAvailable (index : ℕ) (queue : KernargQueue) : Option (KernargSlice × KernargQueue) :=
  match queue.available[index]?, queue.available.getLast? with
  | some slice, some last =>
    some (slice, { queue with available := (queue.available.set index last).dropLast })
  | _, _ => none

/-- The object of a launch: one that is available, one that has just retired, or a new one. -/
def acquireDispatch (allocationSize : ℕ) (around : Surroundings) (queue : KernargQueue) :
    Except Status KernargSlice × KernargQueue :=
  let fromAvailable := fun index (queue : KernargQueue) =>
    match takeAvailable index queue with
    | some (slice, queue) => (Except.ok slice, queue)
    | none => (.error .runtime, queue)
  match findReusable allocationSize queue.available with
  | some index => fromAvailable index queue
  | none =>
    let queue := reap around.reaped queue
    if around.reapStatus ≠ .success then (.error around.reapStatus, queue)
    else
      match findReusable allocationSize queue.available with
      | some index => fromAvailable index queue
      | none =>
        match allocateKernarg allocationSize around queue with
        | none => (.error .runtime, queue)
        | some (slice, queue) =>
          if around.object then (.ok slice, queue)
          else (.error .runtime, rollbackKernarg slice queue)

/-- The kernarg part of the submission: nothing for an empty segment. -/
def fillKernarg (requirements : KernargBufferRequirements) (kernel : KernelInfo)
    (config : LaunchConfig) (args argsSize : ℕ) (slice : KernargSlice) (queue : KernargQueue) :
    Bool × KernargQueue :=
  if requirements.storageSize = 0 then (true, queue)
  else
    let destination := slice.hostAddress queue.arenas
    match materializeKernargBuffer requirements args argsSize destination slice.size
        (slice.gpuAddress queue.arenas) queue.memory with
    | .error _ => (false, queue)
    | .ok (_, memory) =>
      let (populated, memory) :=
        populateLightRocrHiddenKernargs kernel config destination kernel.kernargSize memory
      (populated, { queue with memory := memory })

/-- `aql_submit_status`. -/
def aqlSubmitStatus : Aql.AqlSubmitError → Status
  | .none => .success
  | .invalidPacket | .invalidQueue => .invalidArgument
  | .queueFull | .reserveFailed => .runtime

/-- The storage of an argument buffer is rounded up to whole pages. -/
def allocationSize (storageSize : ℕ) : ℕ := (storageSize + 4095) / 4096 * 4096

/-- `submit_direct_kfd_kernel_impl_locked`. While it waits for ring space other launches may run;
`queue` is what it finds behind the wait. -/
def submitKernel (kernel : KernelInfo) (config : LaunchConfig) (args argsSize : ℕ)
    (around : Surroundings) (queue : KernargQueue) : Status × KernargQueue :=
  if args = 0 ∨ around.eventRefused = true then (.invalidArgument, queue)
  else if kernel.explicitArgumentSize < argsSize ∨ kernel.usesDynamicStack = true ∨
      2 ^ 32 - 1 - kernel.groupSegmentSize < config.sharedMemoryBytes.toNat then
    (if kernel.usesDynamicStack then .notSupported else .invalidArgument, queue)
  else if around.scratch ≠ .success then (around.scratch, queue)
  else if around.capacity ≠ .success then (around.capacity, queue)
  else if around.barrierRoom = false then (.runtime, queue)
  else
    match kernargBufferRequirements kernel args argsSize with
    | .error .unsupportedAlignment => (.notSupported, queue)
    | .error _ => (.invalidArgument, queue)
    | .ok requirements =>
      let allocationSize := allocationSize requirements.storageSize
      if around.queueRoom = false then (.runtime, queue)
      else
        match acquireDispatch allocationSize around queue with
        | (.error status, queue) => (status, queue)
        | (.ok slice, queue) =>
          match fillKernarg requirements kernel config args argsSize slice queue with
          | (false, queue) =>
            (.invalidArgument, { queue with available := queue.available ++ [slice] })
          | (true, queue) =>
            if around.recorded = false then
              (.runtime, { queue with available := queue.available ++ [slice] })
            else if around.submitted ≠ .none then
              (aqlSubmitStatus around.submitted,
                { queue with available := queue.available ++ [slice] })
            else (.success, { queue with pending := queue.pending ++ [slice] })

/-! ## What is written -/

section Written

variable {kernel : KernelInfo} {config : LaunchConfig} {first second memory memory' : Memory}
  {bytes bytes' kernargSize length : ℕ}

/-- Whether an argument is written does not depend on the place of the segment, and it is
written inside. -/
theorem writeArgument_cases (bufferSize : ℕ) (argument : KernelArgumentInfo) (value : List UInt8) :
    (∀ bytes memory, writeArgument bytes bufferSize argument value memory = (false, memory)) ∨
      argument.offset + value.length ≤ bufferSize ∧ ∀ bytes memory,
        writeArgument bytes bufferSize argument value memory =
          (true, write memory (bytes + argument.offset) value) := by
  by_cases hrefused : argument.size ≠ value.length ∨ bufferSize < argument.offset ∨
      bufferSize - argument.offset < argument.size
  · left
    exact fun bytes memory => if_pos hrefused
  · right
    exact ⟨by omega, fun bytes memory => if_neg hrefused⟩

/-- The hidden arguments are the same wherever the segment lies and whatever is around it. -/
theorem writeHidden_agree (arguments : List KernelArgumentInfo)
    (h : Agree first second bytes bytes' length) :
    (writeHidden config bytes kernargSize arguments first).1 =
        (writeHidden config bytes' kernargSize arguments second).1 ∧
      Agree (writeHidden config bytes kernargSize arguments first).2
        (writeHidden config bytes' kernargSize arguments second).2 bytes bytes' length := by
  induction arguments generalizing first second with
  | nil => exact ⟨rfl, h⟩
  | cons argument rest ih =>
    rw [writeHidden, writeHidden]
    cases hiddenValue config argument.kind with
    | none => exact ih h
    | some value =>
      dsimp only
      rcases writeArgument_cases kernargSize argument value with hwrite | ⟨-, hwrite⟩
      · rw [hwrite, hwrite]
        exact ⟨rfl, h⟩
      · rw [hwrite, hwrite]
        exact ih (h.written argument.offset value)

/-- The hidden arguments are written into the segment only. -/
theorem writeHidden_outside (arguments : List KernelArgumentInfo) {address : ℕ}
    (h : ¬ InRange bytes kernargSize address) :
    (writeHidden config bytes kernargSize arguments memory).2 address = memory address := by
  induction arguments generalizing memory with
  | nil => rfl
  | cons argument rest ih =>
    rw [writeHidden]
    cases hiddenValue config argument.kind with
    | none => exact ih
    | some value =>
      dsimp only
      rcases writeArgument_cases kernargSize argument value with hwrite | ⟨hinside, hwrite⟩
      · rw [hwrite]
      · rw [hwrite]
        refine ih.trans (write_outside ?_)
        unfold InRange at h ⊢
        omega

theorem populate_agree (kernel : KernelInfo) (config : LaunchConfig) (hbytes : bytes ≠ 0)
    (hbytes' : bytes' ≠ 0) (h : Agree first second bytes bytes' length) :
    Agree (populateLightRocrHiddenKernargs kernel config bytes kernargSize first).2
      (populateLightRocrHiddenKernargs kernel config bytes' kernargSize second).2 bytes bytes'
      length := by
  unfold populateLightRocrHiddenKernargs populateFrom
  by_cases hrefused : kernargSize < kernel.kernargSize ∨ refusedConfig config = true
  · rw [if_pos (by tauto), if_pos (by tauto)]
    exact h
  · rw [if_neg (by tauto), if_neg (by tauto)]
    exact (writeHidden_agree _ h).2

theorem populate_outside {address : ℕ} (h : ¬ InRange bytes kernargSize address) :
    (populateLightRocrHiddenKernargs kernel config bytes kernargSize memory).2 address =
      memory address := by
  unfold populateLightRocrHiddenKernargs populateFrom
  split
  · rfl
  · exact writeHidden_outside _ h

end Written

variable {requirements : KernargBufferRequirements}

/-- The segment as `materialize_kernarg_buffer` leaves it: the bytes of the caller and zeros. -/
theorem materialize_spec
    {arguments argumentsSize destination destinationSize gpuAddress address : ℕ}
    {memory memory' : Memory} (hsize : requirements.storageSize ≠ 0)
    (h : materializeKernargBuffer requirements arguments argumentsSize destination destinationSize
      gpuAddress memory = .ok (address, memory')) :
    argumentsSize ≤ requirements.storageSize ∧ destination ≠ 0 ∧
      memory' = write (write memory destination (read memory arguments argumentsSize))
        (destination + argumentsSize)
        (List.replicate (requirements.storageSize - argumentsSize) 0) := by
  unfold materializeKernargBuffer at h
  split at h
  · cases h
  split at h
  · cases h
  split at h
  · cases h
  split at h
  · cases h
  split at h
  · cases h
  split at h
  · cases h
  cases h
  exact ⟨by omega, by assumption, rfl⟩

/-! ## Launches -/

section Launches

variable {kernel : KernelInfo} {config : LaunchConfig} {args args' argsSize : ℕ}
  {around around' : Surroundings} {queue queue' : KernargQueue} {slice slice' : KernargSlice}

theorem allocateKernarg_memory {size : ℕ} (h : allocateKernarg size around queue = some (slice, queue')) :
    queue'.memory = queue.memory := by
  unfold allocateKernarg at h
  split at h
  · cases h
    rfl
  split at h
  · split at h
    · cases h
    · cases h
      rfl
  · split at h
    · cases h
    · cases h
      rfl

/-- Finding an object writes nothing. -/
theorem acquireDispatch_memory {size : ℕ}
    (h : acquireDispatch size around queue = (.ok slice, queue')) :
    queue'.memory = queue.memory := by
  have hfrom : ∀ {queue : KernargQueue} {index : ℕ},
      (match takeAvailable index queue with
        | some (slice, queue) => (Except.ok slice, queue)
        | none => (.error Status.runtime, queue)) = (.ok slice, queue') →
      queue'.memory = queue.memory := by
    intro queue index h
    unfold takeAvailable at h
    split at h
    · next htake =>
      split at htake
      · cases htake
        cases h
        rfl
      · cases htake
    · cases h
  unfold acquireDispatch at h
  dsimp only at h
  split at h
  · exact hfrom h
  split at h
  · cases h
  split at h
  · exact (hfrom h).trans rfl
  split at h
  · cases h
  · next hallocate =>
    split at h
    · cases h
      have hmemory : (reap around.reaped queue).memory = queue.memory := rfl
      rw [allocateKernarg_memory hallocate, hmemory]
    · cases h

/-- An object that is not found is not reported as a success. -/
theorem acquireDispatch_error {size : ℕ} {status : Status}
    (h : acquireDispatch size around queue = (.error status, queue')) : status ≠ .success := by
  have hfrom : ∀ {queue : KernargQueue} {index : ℕ},
      (match takeAvailable index queue with
        | some (slice, queue) => (Except.ok slice, queue)
        | none => (.error Status.runtime, queue)) = (.error status, queue') →
      status ≠ .success := by
    intro queue index h
    split at h
    · cases h
    · cases h
      decide
  unfold acquireDispatch at h
  dsimp only at h
  split at h
  · exact hfrom h
  split at h
  · next hreap =>
    cases h
    exact hreap
  split at h
  · exact hfrom h
  split at h
  · cases h
    decide
  · split at h
    · cases h
    · cases h
      decide

theorem aqlSubmitStatus_ne {error : Aql.AqlSubmitError} (h : error ≠ .none) :
    aqlSubmitStatus error ≠ .success := by
  cases error with
  | none => exact absurd rfl h
  | invalidPacket | invalidQueue | queueFull | reserveFailed => decide

theorem requirements_eq (h : kernargBufferRequirements kernel args argsSize = .ok requirements) :
    requirements.storageSize = kernel.kernargSize := by
  unfold kernargBufferRequirements at h
  split at h
  · cases h
  split at h
  · cases h
  split at h
  · cases h
  cases h
  rfl

/-- The memory of the caller and of the runtime when the segment at `destination` is filled. -/
inductive Filled (kernel : KernelInfo) (config : LaunchConfig) (args argsSize destination : ℕ)
    (before : Memory) : Memory → Prop
  | empty : kernel.kernargSize = 0 → Filled kernel config args argsSize destination before before
  | segment : argsSize ≤ kernel.kernargSize → destination ≠ 0 →
      Filled kernel config args argsSize destination before
        (populateLightRocrHiddenKernargs kernel config destination kernel.kernargSize
          (write (write before destination (read before args argsSize)) (destination + argsSize)
            (List.replicate (kernel.kernargSize - argsSize) 0))).2

theorem fillKernarg_spec {after : KernargQueue}
    (hrequirements : requirements.storageSize = kernel.kernargSize)
    (h : fillKernarg requirements kernel config args argsSize slice queue = (true, after)) :
    after.arenas = queue.arenas ∧ Filled kernel config args argsSize
      (slice.hostAddress queue.arenas) queue.memory after.memory := by
  unfold fillKernarg at h
  split at h
  · next hempty =>
    cases h
    exact ⟨rfl, .empty (hrequirements ▸ hempty)⟩
  · next hnonempty =>
    dsimp only at h
    split at h
    · cases h
    · next address memory hmaterialize =>
      obtain ⟨hsize, hdestination, rfl⟩ := materialize_spec hnonempty hmaterialize
      obtain ⟨-, rfl⟩ := Prod.mk.inj h
      rw [hrequirements] at hsize
      refine ⟨rfl, ?_⟩
      dsimp only
      rw [hrequirements]
      exact .segment hsize hdestination

/-- An accepted launch has filled the segment of its dispatch, which is the last pending one. -/
theorem filled_of_success {after : KernargQueue}
    (h : submitKernel kernel config args argsSize around queue = (.success, after)) :
    ∃ slice, after.pending.getLast? = some slice ∧
      Filled kernel config args argsSize (slice.hostAddress after.arenas) queue.memory
        after.memory := by
  unfold submitKernel at h
  split at h
  · cases h
  split at h
  · split at h <;> cases h
  split at h
  · next hscratch =>
    exact absurd (Prod.mk.inj h).1 hscratch
  split at h
  · next hcapacity =>
    exact absurd (Prod.mk.inj h).1 hcapacity
  split at h
  · cases h
  split at h
  · cases h
  · cases h
  · next requirements hrequirements =>
    dsimp only at h
    split at h
    · cases h
    split at h
    · next hacquire =>
      exact absurd (Prod.mk.inj h).1 (acquireDispatch_error hacquire)
    · next slice found hacquire =>
      split at h
      · cases h
      · next filled hfill =>
        obtain ⟨harenas, hfilled⟩ := fillKernarg_spec (requirements_eq hrequirements) hfill
        split at h
        · cases h
        split at h
        · next hsubmitted =>
          exact absurd (Prod.mk.inj h).1 (aqlSubmitStatus_ne hsubmitted)
        · cases h
          refine ⟨slice, List.getLast?_concat .., ?_⟩
          dsimp only
          rw [harenas, ← acquireDispatch_memory hacquire]
          exact hfilled

/-- Filled segments are the same in two runs in which the caller has given the same bytes. -/
theorem Filled.agree {destination destination' : ℕ} {before before' after after' : Memory}
    (h : Filled kernel config args argsSize destination before after)
    (h' : Filled kernel config args' argsSize destination' before' after')
    (hbytes : Agree before before' args args' argsSize) :
    Agree after after' destination destination' kernel.kernargSize := by
  cases h with
  | empty hempty =>
    rw [hempty]
    intro i hi
    exact absurd hi (Nat.not_lt_zero i)
  | segment hsize hdestination =>
    cases h' with
    | empty hempty =>
      rw [hempty]
      intro i hi
      exact absurd hi (Nat.not_lt_zero i)
    | segment hsize' hdestination' =>
      refine populate_agree kernel config hdestination hdestination' ?_
      rw [hbytes.read_eq]
      have hargs := agree_write before before' destination destination' (read before' args' argsSize)
      rw [length_read] at hargs
      have hall := hargs.extend (List.replicate (kernel.kernargSize - argsSize) 0)
      rwa [List.length_replicate, Nat.add_sub_cancel' hsize] at hall

/-- Nothing outside the segment is written. -/
theorem Filled.outside {destination address : ℕ} {before after : Memory}
    (h : Filled kernel config args argsSize destination before after)
    (haddress : ¬ InRange destination kernel.kernargSize address) :
    after address = before address := by
  cases h with
  | empty => rfl
  | segment hsize =>
    unfold InRange at haddress
    rw [populate_outside haddress, write_outside, write_outside]
    · rw [length_read]
      unfold InRange
      omega
    · rw [List.length_replicate]
      unfold InRange
      omega

end Launches

/-- Two accepted launches of one kernel with the same configuration and the same argument bytes,
whatever happened before each of them: their segments hold the same bytes, from 0 to the size of
the segment, and neither launch has written a byte outside its segment. -/
theorem kernarg_segment_determined (kernel : KernelInfo) (config : LaunchConfig)
    (args args' argsSize : ℕ) (around around' : Surroundings)
    (queue queue' after after' : KernargQueue)
    (h : submitKernel kernel config args argsSize around queue = (.success, after))
    (h' : submitKernel kernel config args' argsSize around' queue' = (.success, after'))
    (hbytes : Agree queue.memory queue'.memory args args' argsSize) :
    ∃ slice slice', after.pending.getLast? = some slice ∧ after'.pending.getLast? = some slice' ∧
      Agree after.memory after'.memory (slice.hostAddress after.arenas)
        (slice'.hostAddress after'.arenas) kernel.kernargSize ∧
      (∀ address, ¬ InRange (slice.hostAddress after.arenas) kernel.kernargSize address →
        after.memory address = queue.memory address) ∧
      ∀ address, ¬ InRange (slice'.hostAddress after'.arenas) kernel.kernargSize address →
        after'.memory address = queue'.memory address := by
  obtain ⟨slice, hlast, hfilled⟩ := filled_of_success h
  obtain ⟨slice', hlast', hfilled'⟩ := filled_of_success h'
  exact ⟨slice, slice', hlast, hlast', hfilled.agree hfilled' hbytes,
    fun _ => hfilled.outside, fun _ => hfilled'.outside⟩


/-- A kernel with one pointer and two hidden arguments in a segment of 24 bytes. -/
def sampleKernel : KernelInfo :=
  { kernargSize := 24
    kernargAlignment := 16
    explicitArgumentSize := 8
    arguments := [⟨0, 8, .globalBuffer⟩, ⟨8, 4, .hiddenBlockCountX⟩, ⟨12, 2, .hiddenGroupSizeX⟩] }

/-- A launch in which nothing else fails. -/
def sampleSurroundings : Surroundings where
  eventRefused := false
  scratch := .success
  capacity := .success
  barrierRoom := true
  queueRoom := true
  reaped := 0
  reapStatus := .success
  arena := none
  object := true
  recorded := true
  submitted := .none

/-- A queue with one available slice, which holds `left`; the arguments are at address 64. -/
def sampleQueue (left : UInt8) : KernargQueue where
  arenas := [⟨4096, 8192, kDirectKfdKernargArenaSize, 4096⟩]
  pending := []
  available := [⟨some 0, 0, 4096⟩]
  memory := fun address => if address < 4096 then 7 else left

/-- The slice has been cleared in one run and is full of old bytes in the other. -/
theorem kernarg_segment_determined_recycled :
    ∃ slice slice',
      (submitKernel sampleKernel ⟨⟨64, 1, 1⟩, ⟨32, 1, 1⟩, 0⟩ 64 8 sampleSurroundings
        (sampleQueue 0)).2.pending.getLast? = some slice ∧
      (submitKernel sampleKernel ⟨⟨64, 1, 1⟩, ⟨32, 1, 1⟩, 0⟩ 64 8 sampleSurroundings
        (sampleQueue 0xff)).2.pending.getLast? = some slice' ∧
      Agree
        (submitKernel sampleKernel ⟨⟨64, 1, 1⟩, ⟨32, 1, 1⟩, 0⟩ 64 8 sampleSurroundings
          (sampleQueue 0)).2.memory
        (submitKernel sampleKernel ⟨⟨64, 1, 1⟩, ⟨32, 1, 1⟩, 0⟩ 64 8 sampleSurroundings
          (sampleQueue 0xff)).2.memory
        (slice.hostAddress [⟨4096, 8192, kDirectKfdKernargArenaSize, 4096⟩])
        (slice'.hostAddress [⟨4096, 8192, kDirectKfdKernargArenaSize, 4096⟩]) 24 := by
  obtain ⟨slice, slice', hlast, hlast', hagree, -⟩ :=
    kernarg_segment_determined sampleKernel ⟨⟨64, 1, 1⟩, ⟨32, 1, 1⟩, 0⟩ 64 64 8 sampleSurroundings
      sampleSurroundings (sampleQueue 0) (sampleQueue 0xff) _ _
      (Prod.ext (by decide +kernel) rfl) (Prod.ext (by decide +kernel) rfl) (by
        intro i hi
        have hlow : 64 + i < 4096 := by omega
        simp only [sampleQueue, if_pos hlow])
  have harenas : ∀ left ∈ [(0 : UInt8), 0xff], (submitKernel sampleKernel
      ⟨⟨64, 1, 1⟩, ⟨32, 1, 1⟩, 0⟩ 64 8 sampleSurroundings (sampleQueue left)).2.arenas =
      [⟨4096, 8192, kDirectKfdKernargArenaSize, 4096⟩] := by
    decide +kernel
  rw [harenas 0 (by decide), harenas 0xff (by decide)] at hagree
  exact ⟨slice, slice', hlast, hlast', hagree⟩

end LightRocm.KernargSegment
