import Mathlib.Tactic

/-!
# What all parts of the runtime share

The types of `lrrt.h`, the backends the runtime is built with, and 64-bit arithmetic on
natural numbers.
-/

namespace LightRocm

/-- The status of a call, `lr_status_t` in `lrrt.h`. -/
inductive Status where
  | success
  | invalidArgument
  | notInitialized
  | alreadyInitialized
  | notSupported
  | runtime
  | deviceFault
  deriving DecidableEq, Repr

/-- The direction of a copy, `lr_memcpy_kind_t` in `lrrt.h`. -/
inductive MemcpyKind where
  | hostToDevice
  | deviceToHost
  | deviceToDevice
  deriving DecidableEq, Repr

/-- The backend the runtime has been built with. -/
inductive Backend where
  /-- The HSA runtime. -/
  | hsa
  /-- The thunk library, `LRRT_ENABLE_LIGHT_ROCR`. -/
  | lightRocr
  /-- The kernel driver, `LRRT_ENABLE_LIGHT_ROCR_KFD`. -/
  | directKfd
  deriving DecidableEq

/-- `lr_dim3_t`. -/
structure Dim3 where
  x : UInt32
  y : UInt32
  z : UInt32
  deriving DecidableEq

/-- One of the three is zero. -/
def Dim3.hasZero (d : Dim3) : Prop := d.x = 0 ∨ d.y = 0 ∨ d.z = 0

instance (d : Dim3) : Decidable d.hasZero := inferInstanceAs (Decidable (_ ∨ _))

/-- `lr_launch_config_t`. -/
structure LaunchConfig where
  grid : Dim3
  block : Dim3
  sharedMemoryBytes : UInt32
  deriving DecidableEq

/-- `UINT16_MAX`. -/
def kUint16Max : UInt32 := 0xFFFF

/-- `UINT32_MAX`. -/
def kUint32Max : UInt32 := 0xFFFFFFFF

/-- What `launch_impl` refuses before it looks at the device: no arguments, an empty grid or group,
a group larger than the grid, and a group that does not fit in a packet. -/
def LaunchConfig.Invalid (config : LaunchConfig) (argsSize : ℕ) : Prop :=
  argsSize = 0 ∨ (config.grid.hasZero ∨ config.block.hasZero) ∨
    (config.grid.x < config.block.x ∨ config.grid.y < config.block.y ∨
      config.grid.z < config.block.z) ∨
    kUint16Max < config.block.x ∨ kUint16Max < config.block.y ∨ kUint16Max < config.block.z

instance (config : LaunchConfig) (argsSize : ℕ) : Decidable (config.Invalid argsSize) :=
  inferInstanceAs (Decidable (_ ∨ _))

/-- The number of dimensions of a dispatch with these sizes in the second and the third one. -/
def dimensionsOf (gridY gridZ blockY blockZ : ℕ) : ℕ :=
  if 1 < gridZ ∨ 1 < blockZ then 3 else if 1 < gridY ∨ 1 < blockY then 2 else 1

/-- `is_power_of_two`. -/
def isPowerOfTwo (value : ℕ) : Bool := value ≠ 0 && value &&& (value - 1) = 0

/-- The largest `size_t` and `uint64_t`. -/
def sizeMax : ℕ := 2 ^ 64 - 1

/-- The largest `uint32_t`. -/
def u32Max : ℕ := 2 ^ 32 - 1

/-- The largest word, `numeric_limits<uint64_t>::max()`. -/
def maximumWord : UInt64 := 0xffffffffffffffff

/-- `kMemoryPageSize`. -/
def memoryPageSize : UInt64 := 4096

/-- `kScratchBackingAlignment`. -/
def scratchBackingAlignment : UInt64 := 64 * 1024

/-- Unsigned 64-bit wrap-around. -/
def u64 (n : ℕ) : ℕ := n % 2 ^ 64

/-- A value in range does not wrap. -/
theorem u64_of_lt {n : ℕ} (h : n < 2 ^ 64) : u64 n = n := Nat.mod_eq_of_lt h

end LightRocm
