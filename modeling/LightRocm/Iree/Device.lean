import LightRocm.Lib.ByteMemory
import LightRocm.Lib.Program
import LightRocm.Status

/-!
# Transfers and dispatches of the HAL device

The operations that `executor/iree/hal_driver.c` performs on its device: `fill_now`, `update_now`,
`copy_now`, `dispatch_now` and `synchronize`. A kernel that was launched is done once the device was
synchronized; a synchronization that fails has waited for nothing. The surroundings (host allocator,
driver, other HAL code) answer each call; a call that fails may leave anything in the memory.
-/

namespace LightRocm.Iree

open ByteMemory

/-- The codes of `iree_status_t` that are used. -/
inductive StatusCode where
  | invalidArgument
  | outOfRange
  | resourceExhausted
  | permissionDenied
  | unimplemented
  | failedPrecondition
  | internal
  deriving DecidableEq

/-- An `iree_status_t` that is not ok. -/
structure Failure where
  code : StatusCode
  message : String
  deriving DecidableEq

/-- `IREE_HAL_WHOLE_BUFFER`. -/
def wholeBuffer : ℕ := 2 ^ 64 - 1

/-- A HAL buffer. -/
structure Buffer where
  id : ℕ
  /-- The buffer itself is one of this driver, not a part of one. -/
  isLrrt : Bool := true
  /-- The allocated buffer is one of this driver. -/
  backedByLrrt : Bool := true
  /-- `device_ptr` and `byte_offset`. -/
  address : ℕ
  byteLength : ℕ
  transferSource : Bool := true
  transferTarget : Bool := true
  dispatchStorage : Bool := true
  deriving DecidableEq

/-- `iree_hal_buffer_ref_t`: a part of a buffer, or of what the binding table has in a slot. -/
structure BufferRef where
  buffer : Option Buffer
  bufferSlot : ℕ := 0
  offset : ℕ
  length : ℕ
  deriving DecidableEq

/-- What a call is answered, and what a call that fails leaves in the memory. -/
structure Answer where
  failure : Option Failure := none
  left : Memory → Memory := id

/-- The memory that the device can reach, and the kernels that were launched. -/
structure Device where
  memory : Memory
  pending : List (Memory → Memory) := []
  answers : List Answer := []

/-- An operation on the device. -/
abbrev Operation (α : Type) : Type := Fallible Device Failure α

/-- Call the surroundings. -/
def ask : Operation Answer :=
  Fallible.lift fun device =>
    (device.answers.headD {}, { device with answers := device.answers.tail })

/-- Nothing in a process has that many bytes. -/
def tooLarge (size : ℕ) : Prop := 2 ^ 63 ≤ size

instance (size : ℕ) : Decidable (tooLarge size) := inferInstanceAs (Decidable (_ ≤ _))

/-- `iree_allocator_malloc` and `malloc`. -/
def malloc (size : ℕ) (failure : Failure) : Operation Unit := do
  let answer ← ask
  if answer.failure ≠ none ∨ tooLarge size then throw failure else return ()

/-- A call that changes the memory when it succeeds. -/
def access (size : ℕ) (change : Memory → Memory) : Operation Unit := do
  let answer ← ask
  match answer.failure with
  | some failure =>
    modify fun device => { device with memory := answer.left device.memory }
    throw failure
  | none =>
    if tooLarge size then throw ⟨.invalidArgument, "lr_memcpy failed: invalid argument"⟩
    else modify fun device => { device with memory := change device.memory }

/-- `lr_memcpy` from the host. -/
def memcpyToDevice (target : ℕ) (bytes : List UInt8) : Operation Unit :=
  access bytes.length fun memory => write memory target bytes

/-- `lr_memcpy` from one place of the device to another. -/
def memcpyOnDevice (target source length : ℕ) : Operation Unit :=
  access length fun memory => write memory target (read memory source length)

/-- `lr_memcpy` to the host, or `iree_hal_buffer_map_read`. -/
def memcpyToHost (source length : ℕ) : Operation (List UInt8) := do
  access length id
  let device ← get
  return read device.memory source length

/-- What the memory will be once the kernels that were launched are done. -/
def Device.flushed (device : Device) : Memory :=
  device.pending.foldl (fun memory change => change memory) device.memory

/-- `lr_synchronize`, in `lrrt_iree_hal_device_synchronize`. -/
def synchronize : Operation Unit := do
  access 0 id
  modify fun device => { device with memory := device.flushed, pending := [] }

/-- `lrrt_iree_hal_buffer_device_range`: where the range starts. -/
def deviceRange (buffer : Option Buffer) (offset length : ℕ) : Except Failure ℕ :=
  match buffer with
  | none => .error ⟨.invalidArgument, "buffer is null"⟩
  | some buffer =>
    if buffer.byteLength < offset then
      .error ⟨.outOfRange, "buffer range out of bounds: offset=" ++ toString offset ++
        ", byte_length=" ++ toString buffer.byteLength⟩
    else
      let length := if length = wholeBuffer then buffer.byteLength - offset else length
      if buffer.byteLength - offset < length then
        .error ⟨.outOfRange, "buffer range out of bounds: offset=" ++ toString offset ++ ", length=" ++
          toString length ++ ", byte_length=" ++ toString buffer.byteLength⟩
      else if buffer.backedByLrrt = false then
        .error ⟨.invalidArgument, "buffer is not backed by an lrrt HAL buffer"⟩
      else .ok (buffer.address + offset)

/-- Stop with a failure. -/
def refuse (bad : Prop) [Decidable bad] (code : StatusCode) (message : String) : Operation Unit :=
  if bad then throw ⟨code, message⟩ else return ()

/-- `lr_launch`. -/
def launch (config : LaunchConfig) (argsSize : ℕ) (change : Memory → Memory) : Operation Unit := do
  refuse (config.Invalid argsSize) .invalidArgument "lr_launch failed: invalid argument"
  access 0 id
  modify fun device => { device with pending := device.pending ++ [change] }

/-- What surrounds the device: the binding tables and the buffers of the HAL, and what its kernels
do. -/
structure Hal where
  Table : Type
  /-- `iree_hal_buffer_binding_table_resolve_ref`. -/
  resolveRef : Table → BufferRef → Except Failure BufferRef
  /-- A reference that gives a length keeps it. -/
  resolveRef_length : ∀ {table : Table} {ref resolved : BufferRef},
    resolveRef table ref = .ok resolved → ref.length ≠ wholeBuffer → resolved.length = ref.length
  /-- Where `iree_hal_buffer_map_read` and `iree_hal_buffer_map_write` read or write. -/
  mapRange : Buffer → (offset length : ℕ) → Except Failure ℕ
  /-- They accept the ranges that lie in the buffer. -/
  mapRange_eq_ok : ∀ {buffer : Buffer} {offset length address : ℕ}, ¬ tooLarge length →
    (mapRange buffer offset length = .ok address ↔
      offset + length ≤ buffer.byteLength ∧ address = buffer.address + offset)
  /-- What a kernel does with its arguments. -/
  effect : (kernel : ℕ) → LaunchConfig → (kernargs : List UInt8) → Memory → Memory

/-- The scratch memory of `fill_now`, after some rounds of its loop. -/
def scratch (pattern : List UInt8) : ℕ → List UInt8
  | 0 => []
  | rounds + 1 => scratch pattern rounds ++ pattern

/-- `lrrt_iree_hal_device_fill_now`. -/
def fillNow (target : Buffer) (offset length : ℕ) (pattern : Option (List UInt8))
    (patternLength : ℕ) : Operation Unit := do
  if length = 0 then return ()
  else
    refuse (pattern = none ∨ (patternLength ≠ 1 ∧ patternLength ≠ 2 ∧ patternLength ≠ 4))
      .invalidArgument "queue fill pattern length must be 1, 2, or 4"
    refuse (offset % patternLength ≠ 0 ∨ length % patternLength ≠ 0)
      .invalidArgument "queue fill range is not pattern-aligned"
    refuse (target.transferTarget = false)
      .permissionDenied "queue fill target buffer lacks transfer-target usage"
    let address ← Fallible.ofExcept (deviceRange (some target) offset length)
    malloc length ⟨.resourceExhausted, "out of memory"⟩
    memcpyToDevice address
      (scratch ((pattern.getD []).take patternLength) (length / patternLength))

/-- `lrrt_iree_hal_device_update_now`. -/
def updateNow (source : List UInt8) (sourceOffset : ℕ) (target : Buffer) (offset length : ℕ) :
    Operation Unit := do
  if length = 0 then return ()
  else
    refuse (target.transferTarget = false)
      .permissionDenied "queue update target buffer lacks transfer-target usage"
    let address ← Fallible.ofExcept (deviceRange (some target) offset length)
    memcpyToDevice address ((source.drop sourceOffset).take length)

/-- Where a copy reads or writes; a buffer of another driver, or a part of a buffer, is mapped. -/
def copyRange (hal : Hal) (buffer : Buffer) (offset length : ℕ) : Except Failure ℕ :=
  if buffer.isLrrt = true then deviceRange (some buffer) offset length
  else hal.mapRange buffer offset length

/-- `lrrt_iree_hal_device_copy_now`. -/
def copyNow (hal : Hal) (source : Buffer) (sourceOffset : ℕ) (target : Buffer) (offset length : ℕ) :
    Operation Unit := do
  if length = 0 then return ()
  else
    refuse (source.transferSource = false)
      .permissionDenied "queue copy source buffer lacks transfer-source usage"
    refuse (target.transferTarget = false)
      .permissionDenied "queue copy target buffer lacks transfer-target usage"
    if source.isLrrt = true ∧ target.isLrrt = true then
      let sourceAddress ← Fallible.ofExcept (deviceRange (some source) sourceOffset length)
      let address ← Fallible.ofExcept (deviceRange (some target) offset length)
      memcpyOnDevice address sourceAddress length
    else
      malloc length
        ⟨.resourceExhausted, "lrrt HAL queue copy failed to allocate staging buffer"⟩
      let sourceAddress ← Fallible.ofExcept (copyRange hal source sourceOffset length)
      let staging ← memcpyToHost sourceAddress length
      let address ← Fallible.ofExcept (copyRange hal target offset length)
      memcpyToDevice address staging

/-- `iree_hal_dispatch_config_t`. -/
structure DispatchConfig where
  workgroupCount : Dim3
  workgroupSize : Dim3
  dynamicWorkgroupLocalMemory : UInt32 := 0
  /-- `workgroup_count_ref.buffer` is there. -/
  indirectCount : Bool := false
  deriving DecidableEq

/-- A function of an executable. -/
structure ExecutableFunction where
  kernel : Option ℕ
  defaultWorkgroupSize : Dim3
  deriving DecidableEq

/-- An executable. -/
structure Executable where
  id : ℕ
  functions : List ExecutableFunction
  deriving DecidableEq

/-- The function that an index names. -/
def Executable.function (executable : Executable) (index : ℕ) : Except Failure ExecutableFunction :=
  match executable.functions[index]? with
  | none => .error ⟨.outOfRange, "lrrt HAL executable function index " ++ toString index ++
      " is out of range; function count is " ++ toString executable.functions.length⟩
  | some function => .ok function

/-- `lrrt_iree_hal_executable_resolve_workgroup_size`. -/
def resolveWorkgroupSize (executable : Executable) (function : ℕ) (config : DispatchConfig)
    (operation : String) : Except Failure DispatchConfig := do
  let state ← executable.function function
  if ¬ config.workgroupSize.hasZero then .ok config
  else if state.defaultWorkgroupSize.hasZero then
    .error ⟨.unimplemented, "lrrt HAL " ++ operation ++
      " requires explicit workgroup size metadata"⟩
  else .ok { config with workgroupSize := state.defaultWorkgroupSize }

/-- `lrrt_iree_hal_executable_kernel_for_function`. -/
def kernelForFunction (executable : Executable) (function : ℕ) : Except Failure ℕ := do
  let state ← executable.function function
  match state.kernel with
  | none => .error ⟨.failedPrecondition, "lrrt HAL executable function has no kernel"⟩
  | some kernel => .ok kernel

/-- The launch of a resolved configuration. -/
def DispatchConfig.launch (config : DispatchConfig) : LaunchConfig where
  grid := ⟨config.workgroupCount.x * config.workgroupSize.x,
    config.workgroupCount.y * config.workgroupSize.y,
    config.workgroupCount.z * config.workgroupSize.z⟩
  block := config.workgroupSize
  sharedMemoryBytes := config.dynamicWorkgroupLocalMemory

/-- The bytes of a pointer. -/
def pointerBytes (address : ℕ) : List UInt8 :=
  (List.range 8).map fun i => UInt8.ofNat (address / 256 ^ i)

/-- `LRRT_IREE_HAL_MAX_INLINE_BINDINGS`. -/
def maxInlineBindings : ℕ := 64

/-- Where a binding of a dispatch starts. -/
def bindingAddress (hal : Hal) (table : hal.Table) (i : ℕ) (ref : BufferRef) : Except Failure ℕ := do
  let binding ← hal.resolveRef table ref
  match binding.buffer with
  | none => .error ⟨.invalidArgument, "lrrt HAL dispatch binding " ++ toString i ++
      " resolved to null buffer"⟩
  | some buffer =>
    if buffer.dispatchStorage = false then
      .error ⟨.permissionDenied, "lrrt HAL dispatch binding " ++ toString i ++
        " lacks dispatch-storage usage"⟩
    else deviceRange (some buffer) binding.offset binding.length

/-- The loop of `dispatch_now` over the bindings, from index `i` on. -/
def bindingArguments (hal : Hal) (table : hal.Table) : ℕ → List BufferRef → Except Failure (List UInt8)
  | _, [] => .ok []
  | i, ref :: rest => do
    let address ← bindingAddress hal table i ref
    let more ← bindingArguments hal table (i + 1) rest
    .ok (pointerBytes address ++ more)

/-- The memory for the arguments of a kernel. -/
def allocateKernargs (size : ℕ) : Operation Unit :=
  if size = 0 then return ()
  else malloc size ⟨.resourceExhausted, "lrrt HAL dispatch failed to allocate kernargs"⟩

/-- A dispatch, as it is asked for. -/
structure Dispatch where
  executable : Executable
  function : ℕ
  config : DispatchConfig
  constants : List UInt8
  bindings : List BufferRef
  /-- `values` of the bindings is a null pointer. -/
  nullBindings : Bool := false
  /-- One of the flags that are not supported. -/
  indirectFlags : Bool := false
  deriving DecidableEq

/-- `lrrt_iree_hal_device_dispatch_now`. -/
def dispatchNow (hal : Hal) (table : hal.Table) (dispatch : Dispatch) : Operation Unit := do
  refuse (dispatch.indirectFlags = true) .unimplemented
    "lrrt HAL dispatch only supports direct static arguments"
  refuse (dispatch.config.indirectCount = true) .unimplemented
    "lrrt HAL dispatch does not support indirect workgroup counts yet"
  if dispatch.config.workgroupCount.hasZero then return ()
  else
    let config ← Fallible.ofExcept
      (resolveWorkgroupSize dispatch.executable dispatch.function dispatch.config "dispatch")
    refuse (maxInlineBindings < dispatch.bindings.length) .outOfRange
      ("lrrt HAL dispatch binding count " ++ toString dispatch.bindings.length ++
        " exceeds inline limit " ++ toString maxInlineBindings)
    refuse (dispatch.bindings.length ≠ 0 ∧ dispatch.nullBindings = true) .invalidArgument
      "lrrt HAL dispatch binding list is null"
    let kernel ← Fallible.ofExcept (kernelForFunction dispatch.executable dispatch.function)
    allocateKernargs (8 * dispatch.bindings.length + dispatch.constants.length)
    let arguments ← Fallible.ofExcept (bindingArguments hal table 0 dispatch.bindings)
    launch config.launch (8 * dispatch.bindings.length + dispatch.constants.length)
      (hal.effect kernel config.launch (arguments ++ dispatch.constants))

end LightRocm.Iree
