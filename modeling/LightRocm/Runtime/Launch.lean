import LightRocm.Aql.RingSafety
import LightRocm.Status

/-!
# Launches of the three backends

`launch_impl` from the request of the caller to the packets it submits. The sizes
of a request are machine words, and every backend makes its own checks of them
before it builds the packet with `aql_dispatch_parameters`.
-/

namespace LightRocm.Launch

open Aql

/-- What the runtime knows about a kernel. -/
structure Kernel where
  /-- Bytes of the argument buffer. -/
  kernargSize : UInt32
  /-- Bytes of arguments the caller may give; the HSA backend does not know it. -/
  explicitArgumentSize : UInt32
  /-- The kernel needs a dynamic stack; the HSA backend does not look at it. -/
  usesDynamicStack : Bool
  groupSegmentSize : UInt32
  privateSegmentSize : UInt32
  /-- Address of the kernel descriptor. -/
  object : UInt64

/-- What the other parts of a launch decide: their statuses and what they have found. -/
structure Surroundings (Sig : Type) where
  /-- Kernel, device and queue are looked up. -/
  lookup : Status
  /-- The dependencies are collected. -/
  dependencies : Status
  /-- The queue gets the scratch memory the kernel needs. -/
  scratch : Status
  /-- The queue gets room for the packets. -/
  capacity : Status
  /-- The argument buffer is allocated and filled. -/
  arguments : Status
  /-- The argument buffer of a refused launch can be released. -/
  releasable : Bool
  /-- The signal and the room in the lists of the queue. -/
  resources : Status
  /-- The barriers that the launch submits together with its dispatch. -/
  barriers : List (AqlBarrierAndParameters Sig)
  ordering : AqlDispatchOrdering
  kernargAddress : UInt64
  completionSignal : Option Sig

variable {Sig α : Type}

/-- A launch goes on only after a success. -/
def require (status : Status) (next : Except Status α) : Except Status α :=
  if status = .success then next else .error status

/-- `aql_dispatch_parameters`. -/
def aqlDispatchParameters (config : LaunchConfig) (privateSegmentSize groupSegmentSize : UInt32)
    (kernelObject kernargAddress : UInt64) (completionSignal : Option Sig) :
    AqlKernelDispatchParameters Sig where
  gridSizeX := config.grid.x.toNat
  gridSizeY := config.grid.y.toNat
  gridSizeZ := config.grid.z.toNat
  workgroupSizeX := config.block.x.toUInt16.toNat
  workgroupSizeY := config.block.y.toUInt16.toNat
  workgroupSizeZ := config.block.z.toUInt16.toNat
  privateSegmentSize := privateSegmentSize.toNat
  groupSegmentSize := groupSegmentSize.toNat
  kernelObject := kernelObject.toNat
  kernargAddress := kernargAddress.toNat
  completionSignal := completionSignal

/-- The parameters of a launch; the sum of the group sizes is one of 32 bits. -/
def dispatchParameters (kernel : Kernel) (config : LaunchConfig) (around : Surroundings Sig) :
    AqlKernelDispatchParameters Sig :=
  aqlDispatchParameters config kernel.privateSegmentSize
    (kernel.groupSegmentSize + config.sharedMemoryBytes) kernel.object around.kernargAddress
    around.completionSignal

/-- The submission of a backend that puts the barriers in front of the dispatch. -/
def withBarriers (kernel : Kernel) (config : LaunchConfig) (around : Surroundings Sig)
    (prevalidated : Bool) : Ring.Request Sig :=
  let parameters := dispatchParameters kernel config around
  let ordering : AqlDispatchOrdering :=
    ⟨around.ordering.pendingDispatchCount, !around.barriers.isEmpty⟩
  if around.barriers.isEmpty then .kernelDispatch parameters ordering prevalidated
  else .barriersAndKernelDispatch around.barriers parameters ordering

/-- The HSA part of `launch_impl`; barriers have been submitted before. -/
def launchHsa (kernel : Kernel) (config : LaunchConfig) (argsSize : ℕ)
    (around : Surroundings Sig) : Except Status (Ring.Request Sig) :=
  require around.lookup <|
  if kernel.kernargSize.toNat < argsSize then .error .invalidArgument
  else
    require around.dependencies <|
    require around.capacity <|
    require around.resources <|
    .ok (.kernelDispatch (dispatchParameters kernel config around) around.ordering false)

/-- `submit_light_rocr_kernel_locked`. -/
def submitLightRocrKernelLocked (kernel : Kernel) (config : LaunchConfig) (argsSize : ℕ)
    (around : Surroundings Sig) : Except Status (Ring.Request Sig) :=
  if kernel.explicitArgumentSize.toNat < argsSize then .error .invalidArgument
  else
    require around.scratch <|
    require around.capacity <|
    require around.arguments <|
    if kernel.usesDynamicStack then
      .error (if around.releasable then .notSupported else .runtime)
    else if kUint32Max - kernel.groupSegmentSize < config.sharedMemoryBytes then
      .error (if around.releasable then .invalidArgument else .runtime)
    else require around.resources <| .ok (withBarriers kernel config around false)

/-- `submit_direct_kfd_kernel_impl_locked`. -/
def submitDirectKfdKernelImplLocked (kernel : Kernel) (config : LaunchConfig) (argsSize : ℕ)
    (around : Surroundings Sig) : Except Status (Ring.Request Sig) :=
  if kernel.explicitArgumentSize.toNat < argsSize ∨ kernel.usesDynamicStack = true ∨
      kUint32Max - kernel.groupSegmentSize < config.sharedMemoryBytes then
    .error (if kernel.usesDynamicStack then .notSupported else .invalidArgument)
  else
    require around.scratch <|
    require around.capacity <|
    require around.arguments <|
    require around.resources <| .ok (withBarriers kernel config around true)

/-- The part of `launch_impl` that depends on the backend. -/
def submit (backend : Backend) (kernel : Kernel) (config : LaunchConfig) (argsSize : ℕ)
    (around : Surroundings Sig) : Except Status (Ring.Request Sig) :=
  match backend with
  | .hsa => launchHsa kernel config argsSize around
  | .lightRocr =>
    require around.lookup <| require around.dependencies <|
      submitLightRocrKernelLocked kernel config argsSize around
  | .directKfd =>
    require around.lookup <| require around.dependencies <|
      submitDirectKfdKernelImplLocked kernel config argsSize around

/-- `launch_impl`: what it submits to the ring, or the status it returns without submitting. -/
def launchImpl (backend : Backend) (kernel : Kernel) (config : LaunchConfig) (argsSize : ℕ)
    (around : Surroundings Sig) : Except Status (Ring.Request Sig) :=
  if config.Invalid argsSize then .error .invalidArgument
  else submit backend kernel config argsSize around

/-! ## The published packet -/

/-- The packet of a launch says what the caller has asked for. -/
structure Exact (kernel : Kernel) (config : LaunchConfig) (around : Surroundings Sig)
    (packet : AqlKernelDispatchPacket Sig) : Prop where
  gridSizeX : packet.parameters.gridSizeX = config.grid.x.toNat
  gridSizeY : packet.parameters.gridSizeY = config.grid.y.toNat
  gridSizeZ : packet.parameters.gridSizeZ = config.grid.z.toNat
  workgroupSizeX : packet.parameters.workgroupSizeX = config.block.x.toNat
  workgroupSizeY : packet.parameters.workgroupSizeY = config.block.y.toNat
  workgroupSizeZ : packet.parameters.workgroupSizeZ = config.block.z.toNat
  dimensions : 1 ≤ packet.setup ∧ packet.setup ≤ 3
  unusedY : packet.setup < 2 → config.grid.y = 1 ∧ config.block.y = 1
  unusedZ : packet.setup < 3 → config.grid.z = 1 ∧ config.block.z = 1
  privateSegmentSize : packet.parameters.privateSegmentSize = kernel.privateSegmentSize.toNat
  groupSegmentSize : packet.parameters.groupSegmentSize =
    kernel.groupSegmentSize.toNat + config.sharedMemoryBytes.toNat
  kernelObject : packet.parameters.kernelObject = kernel.object.toNat
  kernargAddress : packet.parameters.kernargAddress = around.kernargAddress.toNat
  completionSignal : packet.parameters.completionSignal = around.completionSignal

variable {backend : Backend} {kernel : Kernel} {config : LaunchConfig} {argsSize : ℕ}
  {around : Surroundings Sig} {request : Ring.Request Sig}

/-- The group sizes can be added without wrapping around. -/
def GroupFits (kernel : Kernel) (config : LaunchConfig) : Prop :=
  kernel.groupSegmentSize.toNat + config.sharedMemoryBytes.toNat < 2 ^ 32

instance : Decidable (GroupFits kernel config) := inferInstanceAs (Decidable (_ < _))

/-- What the entry of every launch has checked. -/
structure Checked (config : LaunchConfig) : Prop where
  grid_ne : config.grid.y ≠ 0 ∧ config.grid.z ≠ 0
  block_ne : config.block.y ≠ 0 ∧ config.block.z ≠ 0
  block_le : config.block.x ≤ kUint16Max ∧ config.block.y ≤ kUint16Max ∧
    config.block.z ≤ kUint16Max

theorem require_eq_ok {status : Status} {next : Except Status α} {a : α}
    (h : require status next = .ok a) : status = .success ∧ next = .ok a := by
  unfold require at h
  split at h
  · exact ⟨‹_›, h⟩
  · cases h

/-- A launch that submits something has passed the checks of the entry. -/
theorem checked_of_launchImpl (h : launchImpl backend kernel config argsSize around = .ok request) :
    Checked config ∧ submit backend kernel config argsSize around = .ok request := by
  unfold launchImpl at h
  split_ifs at h with hvalid
  simp only [LaunchConfig.Invalid, Dim3.hasZero, not_or] at hvalid
  obtain ⟨-, ⟨⟨-, hgridY, hgridZ⟩, -, hblockY, hblockZ⟩, -, hx, hy, hz⟩ := hvalid
  exact ⟨⟨⟨hgridY, hgridZ⟩, ⟨hblockY, hblockZ⟩, UInt32.not_lt.mp hx, UInt32.not_lt.mp hy,
    UInt32.not_lt.mp hz⟩, h⟩

/-- The check of the two backends that have one. -/
theorem groupFits_of_check (h : ¬ kUint32Max - kernel.groupSegmentSize < config.sharedMemoryBytes) :
    GroupFits kernel config := by
  have hsub : (kUint32Max - kernel.groupSegmentSize).toNat =
      kUint32Max.toNat - kernel.groupSegmentSize.toNat :=
    UInt32.toNat_sub_of_le _ _ (UInt32.le_iff_toNat_le.mpr
      (Nat.le_of_lt_succ kernel.groupSegmentSize.toNat_lt))
  rw [UInt32.not_lt, UInt32.le_iff_toNat_le, hsub] at h
  have hlt := kernel.groupSegmentSize.toNat_lt
  have hmax : kUint32Max.toNat = 2 ^ 32 - 1 := rfl
  unfold GroupFits
  omega

/-- What a backend submits ends with the dispatch; two of the backends have checked the sum of
the group sizes. -/
theorem submit_packets (h : submit backend kernel config argsSize around = .ok request) :
    (∃ barriers ordering, request.packets = barriers ++
      [.kernelDispatch (buildAqlKernelDispatchPacket (dispatchParameters kernel config around)
        ordering)]) ∧
    (backend ≠ .hsa → GroupFits kernel config) := by
  have hbarriers : ∀ prevalidated, ∃ barriers ordering,
      (withBarriers kernel config around prevalidated).packets = barriers ++
        [.kernelDispatch (buildAqlKernelDispatchPacket (dispatchParameters kernel config around)
          ordering)] := by
    intro prevalidated
    unfold withBarriers
    split
    · exact ⟨[], _, rfl⟩
    · exact ⟨_, _, rfl⟩
  cases backend with
  | hsa =>
    obtain ⟨-, h⟩ := require_eq_ok h
    split_ifs at h
    obtain ⟨-, h⟩ := require_eq_ok h
    obtain ⟨-, h⟩ := require_eq_ok h
    obtain ⟨-, h⟩ := require_eq_ok h
    obtain rfl := Except.ok.inj h
    exact ⟨⟨[], _, rfl⟩, fun hne => absurd rfl hne⟩
  | lightRocr =>
    obtain ⟨-, h⟩ := require_eq_ok h
    obtain ⟨-, h⟩ := require_eq_ok h
    unfold submitLightRocrKernelLocked at h
    split at h
    · cases h
    · obtain ⟨-, h⟩ := require_eq_ok h
      obtain ⟨-, h⟩ := require_eq_ok h
      obtain ⟨-, h⟩ := require_eq_ok h
      split_ifs at h with _ hgroup
      obtain ⟨-, h⟩ := require_eq_ok h
      obtain rfl := Except.ok.inj h
      exact ⟨hbarriers false, fun _ => groupFits_of_check hgroup⟩
  | directKfd =>
    obtain ⟨-, h⟩ := require_eq_ok h
    obtain ⟨-, h⟩ := require_eq_ok h
    unfold submitDirectKfdKernelImplLocked at h
    split_ifs at h with hargs
    obtain ⟨-, h⟩ := require_eq_ok h
    obtain ⟨-, h⟩ := require_eq_ok h
    obtain ⟨-, h⟩ := require_eq_ok h
    obtain ⟨-, h⟩ := require_eq_ok h
    obtain rfl := Except.ok.inj h
    exact ⟨hbarriers true, fun _ => groupFits_of_check fun hgroup => hargs (.inr (.inr hgroup))⟩

/-- A block size that has been checked is not truncated. -/
theorem toNat_toUInt16 {size : UInt32} (h : size ≤ kUint16Max) :
    size.toUInt16.toNat = size.toNat := by
  rw [UInt32.toNat_toUInt16]
  apply Nat.mod_eq_of_lt
  rw [UInt32.le_iff_toNat_le] at h
  exact Nat.lt_succ_of_le h

/-- A size that is neither zero nor greater than one. -/
theorem eq_one_of_not_lt {size : UInt32} (hne : size ≠ 0) (h : ¬ 1 < size.toNat) : size = 1 := by
  apply UInt32.toNat_inj.mp
  have hzero : size.toNat ≠ 0 := fun heq => hne (UInt32.toNat_inj.mp heq)
  change size.toNat = 1
  omega

/-- The packet that is built for a checked configuration. -/
theorem exact_iff_groupFits (hchecked : Checked config) (ordering : AqlDispatchOrdering) :
    Exact kernel config around (buildAqlKernelDispatchPacket
      (dispatchParameters kernel config around) ordering) ↔ GroupFits kernel config := by
  refine ⟨fun hexact => hexact.groupSegmentSize.symm.trans_lt (UInt32.toNat_lt _), fun hgroup => ?_⟩
  obtain ⟨hx, hy, hz⟩ := hchecked.block_le
  have hsetup : (buildAqlKernelDispatchPacket (dispatchParameters kernel config around)
      ordering).setup = if 1 < config.grid.z.toNat ∨ 1 < config.block.z.toNat then 3
      else if 1 < config.grid.y.toNat ∨ 1 < config.block.y.toNat then 2 else 1 := by
    rw [← toNat_toUInt16 hy, ← toNat_toUInt16 hz]
    rfl
  constructor
  case gridSizeX | gridSizeY | gridSizeZ => rfl
  case workgroupSizeX => exact toNat_toUInt16 hx
  case workgroupSizeY => exact toNat_toUInt16 hy
  case workgroupSizeZ => exact toNat_toUInt16 hz
  case dimensions =>
    rw [hsetup]
    split_ifs <;> omega
  case unusedY =>
    intro hlt
    rw [hsetup] at hlt
    split_ifs at hlt with _ hused
    · omega
    · omega
    · rw [not_or] at hused
      exact ⟨eq_one_of_not_lt hchecked.grid_ne.1 hused.1,
        eq_one_of_not_lt hchecked.block_ne.1 hused.2⟩
  case unusedZ =>
    intro hlt
    rw [hsetup] at hlt
    have hused : ¬ (1 < config.grid.z.toNat ∨ 1 < config.block.z.toNat) := by
      intro hused
      rw [if_pos hused] at hlt
      omega
    rw [not_or] at hused
    exact ⟨eq_one_of_not_lt hchecked.grid_ne.2 hused.1,
      eq_one_of_not_lt hchecked.block_ne.2 hused.2⟩
  case groupSegmentSize =>
    change (kernel.groupSegmentSize + config.sharedMemoryBytes).toNat = _
    rw [UInt32.toNat_add]
    exact Nat.mod_eq_of_lt hgroup
  case privateSegmentSize | kernelObject | kernargAddress | completionSignal => rfl

/-- A launch that any backend accepts publishes a packet under the id it returns. The packet says
exactly what the caller has asked for unless the HSA backend has been given group sizes whose
sum is not one of 32 bits; then it does not. -/
theorem published_packet_exact {packetCount packetId : ℕ} {labels : List (Ring.Label Sig)}
    {s : Ring.Sys Sig} (hlaunch : launchImpl backend kernel config argsSize around = .ok request)
    (hrun : Run.Steps Ring.step (fun _ _ => True) (Ring.init packetCount) labels s)
    (hreturned : s.pc = .returned request .none packetId) :
    ∃ packet, s.log[packetId]? = some (.kernelDispatch packet) ∧
      (Exact kernel config around packet ↔ (backend = .hsa → GroupFits kernel config)) := by
  obtain ⟨hchecked, hsubmit⟩ := checked_of_launchImpl hlaunch
  obtain ⟨⟨barriers, ordering, hpackets⟩, hfits⟩ := submit_packets hsubmit
  have hpublished := (Ring.inv_of_steps hrun).published hreturned
  have hcount : request.count = barriers.length + 1 := by
    rw [Ring.Request.count, hpackets, List.length_append, List.length_singleton]
  have hid : packetId = s.start.writeIndex + barriers.length := by
    have hlast := hpublished.last
    omega
  have hsum : GroupFits kernel config ↔ (backend = .hsa → GroupFits kernel config) :=
    ⟨fun hgroup _ => hgroup, fun hgroup => by_cases hgroup hfits⟩
  refine ⟨_, ?_, (exact_iff_groupFits hchecked ordering).trans hsum⟩
  rw [hid, hpublished.packets _ (by omega), hpackets,
    List.getElem?_append_right le_rfl, Nat.sub_self]
  rfl

/-- A kernel with sixteen bytes of shared memory. -/
def sixteenBytes : Kernel where
  kernargSize := 8
  explicitArgumentSize := 8
  usesDynamicStack := false
  groupSegmentSize := 16
  privateSegmentSize := 0
  object := 64

/-- One workgroup of 64 work-items. -/
def oneWorkgroup (sharedMemoryBytes : UInt32) : LaunchConfig where
  grid := ⟨64, 1, 1⟩
  block := ⟨64, 1, 1⟩
  sharedMemoryBytes := sharedMemoryBytes

/-- Everything else succeeds, and nothing is pending. -/
def unhindered : Surroundings Unit where
  lookup := .success
  dependencies := .success
  scratch := .success
  capacity := .success
  arguments := .success
  releasable := true
  resources := .success
  barriers := []
  ordering := ⟨0, false⟩
  kernargAddress := 4096
  completionSignal := some ()

/-- A submission to an empty ring, up to its return. -/
def submission (request : Ring.Request Unit) : List (Ring.Label Unit) :=
  .submit Ring.fourSlots request :: List.replicate 7 (.produce true)

theorem published_packet_exact_one :
    ∃ (request : Ring.Request Unit) (s : Ring.Sys Unit) (packet : AqlKernelDispatchPacket Unit),
      launchImpl .hsa sixteenBytes (oneWorkgroup 32) 8 unhindered = .ok request ∧
      Run.Steps Ring.step (fun _ _ => True) (Ring.init 4) (submission request) s ∧
      s.log[0]? = some (.kernelDispatch packet) ∧
        Exact sixteenBytes (oneWorkgroup 32) unhindered packet := by
  obtain ⟨request, hlaunch, s, hexec, hreturned⟩ : ∃ request,
      launchImpl .hsa sixteenBytes (oneWorkgroup 32) 8 unhindered = .ok request ∧
      ∃ s, Run.exec Ring.step (submission request) (Ring.init 4) = some s ∧
        s.pc = .returned request .none 0 := ⟨_, rfl, _, rfl, rfl⟩
  have hrun := Run.Steps.of_exec hexec
  obtain ⟨packet, hpacket, hexact⟩ := published_packet_exact hlaunch hrun hreturned
  exact ⟨request, s, packet, hlaunch, hrun, hpacket, hexact.mpr fun _ => by decide⟩

/-- The HSA backend accepts group sizes whose sum wraps around: a kernel with sixteen bytes of
shared memory that is given all but sixteen of the 2^32 bytes more is published with none. -/
theorem wrapped_group_size_published :
    ∃ (request : Ring.Request Unit) (s : Ring.Sys Unit) (packet : AqlKernelDispatchPacket Unit),
      launchImpl .hsa sixteenBytes (oneWorkgroup 0xFFFFFFF0) 8 unhindered = .ok request ∧
      Run.Steps Ring.step (fun _ _ => True) (Ring.init 4) (submission request) s ∧
      s.pc = .returned request .none 0 ∧ s.log[0]? = some (.kernelDispatch packet) ∧
      packet.parameters.groupSegmentSize = 0 ∧
      sixteenBytes.groupSegmentSize.toNat + (oneWorkgroup 0xFFFFFFF0).sharedMemoryBytes.toNat =
        2 ^ 32 :=
  ⟨_, _, _, rfl, Run.Steps.of_exec rfl, rfl, rfl, by decide, by decide⟩

end LightRocm.Launch
