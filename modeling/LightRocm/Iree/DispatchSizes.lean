import LightRocm.Iree.QueueOperations

/-!
# Sizes and arguments of dispatches

What a dispatch of the HAL driver, or of the adapter in `iree_adapter.hpp`, hands to the
runtime: the grid, and the bytes of the kernel arguments.
-/

namespace LightRocm.Iree

open Fallible

/-- The grid has the count times the size in each dimension, as natural numbers. -/
def ExactGrid (launch : LaunchConfig) (count size : Dim3) : Prop :=
  launch.grid.x.toNat = count.x.toNat * size.x.toNat ∧
    launch.grid.y.toNat = count.y.toNat * size.y.toNat ∧
    launch.grid.z.toNat = count.z.toNat * size.z.toNat

/-- The products fit in 32 bits. -/
def ProductsFit (count size : Dim3) : Prop :=
  count.x.toNat * size.x.toNat < 2 ^ 32 ∧ count.y.toNat * size.y.toNat < 2 ^ 32 ∧
    count.z.toNat * size.z.toNat < 2 ^ 32

instance (count size : Dim3) : Decidable (ProductsFit count size) :=
  inferInstanceAs (Decidable (_ ∧ _))

/-- The allocation behind a buffer: `device_ptr` and `allocation_size` of the allocated buffer, and
`byte_offset` of the buffer itself. -/
structure Allocation where
  devicePtr : ℕ
  allocationSize : ℕ
  byteOffset : ℕ

/-- IREE makes a buffer only inside its allocation. -/
def Allocation.Backs (allocation : Allocation) (buffer : Buffer) : Prop :=
  buffer.address = allocation.devicePtr + allocation.byteOffset ∧
    allocation.byteOffset + buffer.byteLength ≤ allocation.allocationSize

/-- The length of a binding; the whole buffer is what follows the offset. -/
def BufferRef.lengthIn (binding : BufferRef) (buffer : Buffer) : ℕ :=
  if binding.length = wholeBuffer then buffer.byteLength - binding.offset else binding.length

/-- The address of a binding, as it is resolved, and its whole range inside the allocation. -/
def Resolved (hal : Hal) (table : hal.Table) (ref : BufferRef) (address : ℕ) : Prop :=
  ∃ binding buffer, hal.resolveRef table ref = .ok binding ∧ binding.buffer = some buffer ∧
    ∀ allocation : Allocation, allocation.Backs buffer →
      address = allocation.devicePtr + allocation.byteOffset + binding.offset ∧
      address + binding.lengthIn buffer ≤ allocation.devicePtr + allocation.allocationSize

/-- `BindingMetadata`. -/
structure BindingMetadata where
  index : UInt32
  type : String
  flags : List String

/-- The part of `ExportMetadata` that sizes and arguments depend on. -/
structure ExportMetadata where
  workgroupSize : Dim3 := ⟨1, 1, 1⟩
  bindings : List BindingMetadata

/-- `launch_config`. -/
def ExportMetadata.launchConfig (metadata : ExportMetadata) (grid : Dim3)
    (sharedMemoryBytes : UInt32) : LaunchConfig :=
  ⟨grid, metadata.workgroupSize, sharedMemoryBytes⟩

/-- `launch_config_for_workgroups`. -/
def ExportMetadata.launchConfigForWorkgroups (metadata : ExportMetadata) (count : Dim3)
    (sharedMemoryBytes : UInt32) : LaunchConfig :=
  metadata.launchConfig ⟨count.x * metadata.workgroupSize.x, count.y * metadata.workgroupSize.y,
    count.z * metadata.workgroupSize.z⟩ sharedMemoryBytes

/-- The loop of `pack_global_buffers`, from index `i` on. -/
def packBindings : ℕ → List BindingMetadata → List ℕ → Except String (List UInt8)
  | i, binding :: bindings, pointer :: pointers =>
    if binding.index.toNat ≠ i then .error "IREE binding indices must be contiguous"
    else if binding.type ≠ "storage_buffer" ∨ "Indirect" ∉ binding.flags then
      .error "unsupported IREE binding for kernarg pack"
    else do
      let more ← packBindings (i + 1) bindings pointers
      .ok (pointerBytes pointer ++ more)
  | _, _, _ => .ok []

/-- `KernargBuilder::pack_global_buffers`. -/
def ExportMetadata.packGlobalBuffers (metadata : ExportMetadata) (devicePointers : List ℕ) :
    Except String (List UInt8) :=
  if devicePointers.length ≠ metadata.bindings.length then
    .error "IREE kernarg buffer count mismatch"
  else packBindings 0 metadata.bindings devicePointers

/-- A product of 32-bit words is the product of the numbers exactly if that fits. -/
theorem toNat_mul_eq_iff (a b : UInt32) :
    (a * b).toNat = a.toNat * b.toNat ↔ a.toNat * b.toNat < 2 ^ 32 := by
  rw [UInt32.toNat_mul]
  exact ⟨fun h => h ▸ Nat.mod_lt _ (by decide), Nat.mod_eq_of_lt⟩

theorem exactGrid_iff_productsFit {launch : LaunchConfig} {count size : Dim3}
    (hgrid : launch.grid = ⟨count.x * size.x, count.y * size.y, count.z * size.z⟩) :
    ExactGrid launch count size ↔ ProductsFit count size := by
  unfold ExactGrid ProductsFit
  rw [hgrid]
  simp only [toNat_mul_eq_iff]

/-- A range that the driver accepts lies in the allocation. -/
theorem deviceRange_resolved {hal : Hal} {table : hal.Table} {ref binding : BufferRef}
    {buffer : Buffer} {address : ℕ} (hresolve : hal.resolveRef table ref = .ok binding)
    (hbuffer : binding.buffer = some buffer)
    (h : deviceRange (some buffer) binding.offset binding.length = .ok address) :
    Resolved hal table ref address := by
  refine ⟨binding, buffer, hresolve, hbuffer, ?_⟩
  rintro allocation ⟨haddress, hinside⟩
  unfold deviceRange at h
  unfold BufferRef.lengthIn
  dsimp only at h
  split_ifs at h with hoffset hwhole hlength hbacked hlength hbacked
  · obtain rfl := Except.ok.inj h
    rw [if_pos hwhole]
    omega
  · obtain rfl := Except.ok.inj h
    rw [if_neg hwhole]
    omega

theorem bindingAddress_resolved {hal : Hal} {table : hal.Table} {i address : ℕ} {ref : BufferRef}
    (h : bindingAddress hal table i ref = .ok address) : Resolved hal table ref address := by
  obtain ⟨binding, hresolve, h⟩ := Checked.bind_eq_ok.mp h
  cases hbuffer : binding.buffer with
  | none => simp [hbuffer] at h
  | some buffer =>
    simp only [hbuffer] at h
    split_ifs at h
    exact deviceRange_resolved hresolve hbuffer h

/-- The arguments are the addresses of the bindings, in order. -/
theorem bindingArguments_eq_ok {hal : Hal} {table : hal.Table} {refs : List BufferRef} :
    ∀ {i : ℕ} {arguments : List UInt8}, bindingArguments hal table i refs = .ok arguments →
      ∃ addresses, List.Forall₂ (Resolved hal table) refs addresses ∧
        arguments = addresses.flatMap pointerBytes := by
  induction refs with
  | nil =>
    intro i arguments h
    obtain rfl := Except.ok.inj h
    exact ⟨[], .nil, rfl⟩
  | cons ref rest ih =>
    intro i arguments h
    obtain ⟨address, haddress, h⟩ := Checked.bind_eq_ok.mp h
    obtain ⟨more, hmore, h⟩ := Checked.bind_eq_ok.mp h
    obtain rfl := Except.ok.inj h
    obtain ⟨addresses, hresolved, rfl⟩ := ih hmore
    exact ⟨address :: addresses, .cons (bindingAddress_resolved haddress) hresolved, rfl⟩

theorem packBindings_eq_ok {bindings : List BindingMetadata} :
    ∀ {i : ℕ} {pointers : List ℕ} {kernargs : List UInt8}, pointers.length = bindings.length →
      packBindings i bindings pointers = .ok kernargs →
      kernargs = pointers.flatMap pointerBytes := by
  induction bindings with
  | nil =>
    intro i pointers kernargs hlength h
    obtain rfl := List.length_eq_zero_iff.mp hlength
    exact (Except.ok.inj h).symm
  | cons binding bindings ih =>
    intro i pointers kernargs hlength h
    cases pointers with
    | nil => cases hlength
    | cons pointer pointers =>
      unfold packBindings at h
      split_ifs at h
      obtain ⟨more, hmore, h⟩ := Checked.bind_eq_ok.mp h
      obtain rfl := Except.ok.inj h
      rw [ih (Nat.succ.inj hlength) hmore]
      rfl

/-- Resolving the size of a group leaves the count alone. -/
theorem resolveWorkgroupSize_count {executable : Executable} {function : ℕ}
    {config resolved : DispatchConfig} {operation : String}
    (h : resolveWorkgroupSize executable function config operation = .ok resolved) :
    resolved.workgroupCount = config.workgroupCount := by
  obtain ⟨state, -, h⟩ := Checked.bind_eq_ok.mp h
  split_ifs at h <;> (obtain rfl := Except.ok.inj h; rfl)

/-- A dispatch that the driver accepts launches the grid of its resolved size exactly if the
products fit in 32 bits, with the addresses of its bindings and then its constants as arguments; so
does what the adapter makes. A dispatch that is refused launches nothing. -/
theorem dispatch_launches_exact_grid (hal : Hal) (table : hal.Table) (dispatch : Dispatch)
    (device : Device) (metadata : ExportMetadata) (count : Dim3) (sharedMemoryBytes : UInt32) :
    (dispatchNow hal table dispatch).Ensures device
      (fun _ after => dispatch.config.workgroupCount.hasZero ∨
        ∃ kernel config addresses,
          resolveWorkgroupSize dispatch.executable dispatch.function dispatch.config "dispatch" =
            .ok config ∧
          (ExactGrid config.launch dispatch.config.workgroupCount config.workgroupSize ↔
            ProductsFit dispatch.config.workgroupCount config.workgroupSize) ∧
          config.launch.block = config.workgroupSize ∧
          List.Forall₂ (Resolved hal table) dispatch.bindings addresses ∧
          after.pending = device.pending ++ [hal.effect kernel config.launch
            (addresses.flatMap pointerBytes ++ dispatch.constants)])
      (fun after => after.pending = device.pending) ∧
    (ExactGrid (metadata.launchConfigForWorkgroups count sharedMemoryBytes) count
      metadata.workgroupSize ↔ ProductsFit count metadata.workgroupSize) ∧
    ∀ pointers kernargs, metadata.packGlobalBuffers pointers = .ok kernargs →
      kernargs = pointers.flatMap pointerBytes := by
  refine ⟨?_, exactGrid_iff_productsFit rfl, fun pointers kernargs h => ?_⟩
  · have hkeeps {α : Type} {x : Operation α} (hx : Keeps x) {middle : Device}
        (hmiddle : middle.pending = device.pending) :
        x.Ensures middle (fun _ after => after.pending = device.pending)
          fun after => after.pending = device.pending :=
      (hx middle).mono (fun _ _ h => h.trans hmiddle) fun _ h => h.trans hmiddle
    have hresult {α : Type} (x : Except Failure α) {middle : Device}
        (hmiddle : middle.pending = device.pending) :
        (Fallible.ofExcept x : Operation α).Ensures middle
          (fun a after => x = .ok a ∧ after.pending = device.pending)
          fun after => after.pending = device.pending :=
      Ensures.ofExcept (fun _ h => ⟨h, hmiddle⟩) fun _ _ => hmiddle
    refine Ensures.bind (hkeeps keeps_refuse rfl) fun _ _ hflags => ?_
    refine Ensures.bind (hkeeps keeps_refuse hflags) fun _ _ hcounted => ?_
    refine Ensures.ite (fun hzero => Ensures.pure (.inl hzero)) fun _ => ?_
    refine Ensures.bind (hresult _ hcounted) fun config _ ⟨hconfig, hresolved⟩ => ?_
    refine Ensures.bind (hkeeps keeps_refuse hresolved) fun _ _ hlimited => ?_
    refine Ensures.bind (hkeeps keeps_refuse hlimited) fun _ _ hlisted => ?_
    refine Ensures.bind (hresult _ hlisted) fun kernel _ ⟨_, hkernel⟩ => ?_
    refine Ensures.bind (hkeeps (Keeps.ite (.pure ()) keeps_malloc) hkernel) fun _ _ hroom => ?_
    refine Ensures.bind (hresult _ hroom) fun arguments _ ⟨harguments, hpacked⟩ => ?_
    refine Ensures.bind (hkeeps keeps_refuse hpacked) fun _ _ hvalid => ?_
    refine Ensures.bind (hkeeps keeps_access hvalid) fun _ _ hlaunched => ?_
    obtain ⟨addresses, hbindings, rfl⟩ := bindingArguments_eq_ok harguments
    have hgrid : config.launch.grid = ⟨_, _, _⟩ := rfl
    rw [resolveWorkgroupSize_count hconfig] at hgrid
    refine Ensures.modify (.inr ⟨kernel, config, addresses, hconfig,
      exactGrid_iff_productsFit hgrid, rfl, hbindings, ?_⟩)
    rw [hlaunched]
  · unfold ExportMetadata.packGlobalBuffers at h
    split_ifs at h with hlength
    exact packBindings_eq_ok (not_not.mp hlength) h

/-- A driver whose kernel stores the grid it was launched with. -/
def gridHal : Hal :=
  { Hal.listed with
    effect := fun _ config _ memory => ByteMemory.write memory 0 [config.grid.x.toUInt8] }

/-- A dispatch of a given count of groups; their size, two, comes from the executable. -/
def groupsOfTwo (count : UInt32) : Dispatch where
  executable := ⟨0, [⟨some 0, ⟨2, 1, 1⟩⟩]⟩
  function := 0
  config := { workgroupCount := ⟨count, 1, 1⟩, workgroupSize := ⟨0, 0, 0⟩ }
  constants := [1, 0, 0, 0, 0, 0, 0, 0]
  bindings := []

/-- Three groups are accepted, and six work-items are launched. -/
theorem dispatch_of_three_groups : ∃ after : Device,
    (dispatchNow gridHal [] (groupsOfTwo 3)).run { memory := fun _ => 0 } = (.ok (), after) ∧
      after.pending.length = 1 ∧ after.flushed 0 = 6 ∧
      ExactGrid ⟨⟨6, 1, 1⟩, ⟨2, 1, 1⟩, 0⟩ ⟨3, 1, 1⟩ ⟨2, 1, 1⟩ := by
  obtain ⟨hdispatch, -⟩ := dispatch_launches_exact_grid gridHal [] (groupsOfTwo 3)
    { memory := fun _ => 0 } ⟨⟨1, 1, 1⟩, []⟩ ⟨1, 1, 1⟩ 0
  obtain hzero | ⟨-, config, -, hconfig, hexact, -⟩ := hdispatch.1 () rfl
  · exact absurd hzero (by decide)
  · obtain rfl := Except.ok.inj hconfig
    exact ⟨_, rfl, rfl, rfl, hexact.mpr (by decide)⟩

/-- A dispatch of `2 ^ 31 + 1` groups of two is accepted by the driver and by the checks of the
runtime, and a grid of two is launched. -/
theorem dispatch_grid_wraps : ∃ after : Device,
    (dispatchNow gridHal [] (groupsOfTwo 0x80000001)).run { memory := fun _ => 0 } =
      (.ok (), after) ∧
    after.pending.length = 1 ∧ after.flushed 0 = 2 ∧
    ¬ ExactGrid ⟨⟨2, 1, 1⟩, ⟨2, 1, 1⟩, 0⟩ ⟨0x80000001, 1, 1⟩ ⟨2, 1, 1⟩ :=
  ⟨_, rfl, rfl, rfl, fun h => absurd h.1 (by decide)⟩

end LightRocm.Iree
