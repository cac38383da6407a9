import LightRocm.Arch.Node
import LightRocm.Lib.Checked

/-!
# The context-save area of a queue

`compute_cwsr_layout` and `initialize_cwsr` from `transport/kfd/queue.cpp`. The area
has one part for each partition (XCC) of the GPU, with a header at its start, and
after the parts the debug memory of all of them. The sizes of a part and of the control
stack are derived from the topology unless the kernel reports them, each on its own.
-/

namespace LightRocm.Transport.Cwsr

open Checked LightRocm.Topology

/-- `checked_add`. -/
def checkedAdd (left right : ℕ) (message : String) : Except String ℕ := do
  refuse (2 ^ 64 - 1 - right < left) message
  return left + right

/-- `checked_multiply`. -/
def checkedMultiply (left right : ℕ) (message : String) : Except String ℕ := do
  refuse (left ≠ 0 ∧ (2 ^ 64 - 1) / left < right) message
  return left * right

/-- `align_up`, to a power of two: the low bits of the sum are cleared. -/
def checkedAlignUp (value alignment : ℕ) (message : String) : Except String ℕ := do
  refuse (2 ^ 64 - 1 - (alignment - 1) < value) message
  return (value + alignment - 1) / alignment * alignment

/-- `packed_gfx_version`. -/
def packedGfxVersion (architecture : GpuArchitecture) : UInt32 :=
  architecture.major <<< 16 ||| architecture.minor <<< 8 ||| architecture.stepping

/-- `vgpr_size_per_compute_unit`. -/
def vgprSizePerComputeUnit (gfxVersion : UInt32) : ℕ :=
  if gfxVersion < 0x090008 then 0x40000
  else if gfxVersion ≤ 0x09000a then 0x80000
  else if gfxVersion ≤ 0x09000c then 0x40000
  else if gfxVersion ≤ 0x090500 then 0x80000
  else if gfxVersion < 0x0b0000 then 0x40000
  else if gfxVersion ≤ 0x0c0001 then 0x60000
  else 0

/-- `sizeof(CwsrHeader)`. -/
def cwsrHeaderSize : ℕ := 40

/-- The control stack for a number of waves. -/
def derivedControlStack (gfxVersion : UInt32) (waveCount : ℕ) : Except String ℕ := do
  let bytesPerWave := if 0x0a0100 ≤ gfxVersion then 12 else 8
  let payloadSize ← checkedMultiply waveCount bytesPerWave "CWSR control stack size overflowed"
  let unalignedSize ← checkedAdd payloadSize (cwsrHeaderSize + 8)
    "CWSR control stack size overflowed"
  let size ← checkedAlignUp unalignedSize 4096 "CWSR control stack size overflowed"
  return if gfxVersion &&& 0x3f0000 = 0x0a0000 then min size 0x7000 else size

/-- The saved state of the compute units of a partition. -/
def workgroupData (node : Node) (vgprSize computeUnitsPerXcc : ℕ) : Except String ℕ := do
  let bytesPerComputeUnit := vgprSize + 0x4000 + node.ldsSizeKb.toNat * 2 ^ 10 + 0x1000
  let size ← checkedMultiply computeUnitsPerXcc bytesPerComputeUnit
    "CWSR wave state size overflowed"
  checkedAlignUp size 4096 "CWSR wave state size overflowed"

/-- What `compute_cwsr_layout` derives from the topology: the number of waves of a partition, and
the two sizes that are used where the kernel reports none. -/
structure DerivedSizes where
  waveCount : ℕ
  controlStackSize : ℕ
  contextSaveRestoreSize : ℕ
  deriving DecidableEq

/-- `compute_cwsr_layout` up to the derived sizes; every failure is `InvalidCwsrLayout`. -/
def derivedSizes (node : Node) (xccCount : UInt32) : Except String DerivedSizes := do
  let gfxVersion := packedGfxVersion node.architecture
  let computeUnitCount := node.computeUnitCount
  let vgprSize := vgprSizePerComputeUnit gfxVersion
  refuse (gfxVersion < 0x090000 ∨ vgprSize = 0 ∨ computeUnitCount = 0 ∨
      computeUnitCount % xccCount ≠ 0 ∨ node.simdPerComputeUnit = 0 ∨
      node.maximumWavesPerSimd = 0 ∨ node.ldsSizeKb = 0)
    "CWSR requires complete supported GPU topology"
  let computeUnitsPerXcc := (computeUnitCount / xccCount).toNat
  let simdCountPerXcc ← checkedMultiply computeUnitsPerXcc node.simdPerComputeUnit.toNat
    "CWSR wave count overflowed"
  let waveCount ← checkedMultiply simdCountPerXcc node.maximumWavesPerSimd.toNat
    "CWSR wave count overflowed"
  let derivedControlStackSize ← derivedControlStack gfxVersion waveCount
  let alignedWorkgroupDataSize ← workgroupData node vgprSize computeUnitsPerXcc
  let derivedContextSaveRestoreSize ← checkedAdd derivedControlStackSize alignedWorkgroupDataSize
    "CWSR context size overflowed"
  return ⟨waveCount, derivedControlStackSize, derivedContextSaveRestoreSize⟩

/-- The control stack: the size that is reported, or the derived one. -/
def DerivedSizes.stackOf (derived : DerivedSizes) (node : Node) : ℕ :=
  if node.controlStackSize ≠ 0 then node.controlStackSize.toNat else derived.controlStackSize

/-- The part of a partition: the size that is reported, or the derived one. -/
def DerivedSizes.contextOf (derived : DerivedSizes) (node : Node) : ℕ :=
  if node.cwsrSize ≠ 0 then node.cwsrSize.toNat else derived.contextSaveRestoreSize

/-- The number of partitions. -/
def partitions (node : Node) : UInt32 := if node.xccCount = 0 then 1 else node.xccCount

/-- The sizes, before they are stored in the fields of a layout. -/
structure CwsrSizes where
  contextSaveRestoreSize : ℕ
  controlStackSize : ℕ
  debugMemorySize : ℕ
  xccCount : ℕ
  allocationSize : ℕ

/-- The sizes that `compute_cwsr_layout` computes. -/
def cwsrSizes (node : Node) : Except String CwsrSizes := do
  let xccCount := partitions node
  let derived ← derivedSizes node xccCount
  let controlStackSize := derived.stackOf node
  let contextSaveRestoreSize := derived.contextOf node
  let debugMemoryUnalignedSize ← checkedMultiply derived.waveCount 32
    "CWSR per-XCC size exceeds the KFD ABI"
  let debugMemorySize ← checkedAlignUp debugMemoryUnalignedSize 64
    "CWSR per-XCC size exceeds the KFD ABI"
  refuse (2 ^ 32 - 1 < controlStackSize ∨ 2 ^ 32 - 1 < contextSaveRestoreSize ∨
      2 ^ 32 - 1 < debugMemorySize ∨ (2 ^ 32 - 1) / xccCount.toNat < contextSaveRestoreSize ∨
      (2 ^ 32 - 1) / xccCount.toNat < debugMemorySize)
    "CWSR per-XCC size exceeds the KFD ABI"
  let perXccSize ← checkedAdd contextSaveRestoreSize debugMemorySize
    "CWSR allocation size overflowed"
  let totalSize ← checkedMultiply perXccSize xccCount.toNat "CWSR allocation size overflowed"
  let allocationSize ← checkedAlignUp totalSize 4096
    "CWSR allocation exceeds the host size range"
  return ⟨contextSaveRestoreSize, controlStackSize, debugMemorySize, xccCount.toNat, allocationSize⟩

/-- `CwsrLayout`. -/
structure CwsrLayout where
  contextSaveRestoreSize : UInt32
  controlStackSize : UInt32
  debugMemorySize : UInt32
  xccCount : UInt32
  allocationSize : UInt64
  deriving DecidableEq

/-- The fields of a layout, cut to their width. -/
def CwsrSizes.layout (sizes : CwsrSizes) : CwsrLayout where
  contextSaveRestoreSize := .ofNat sizes.contextSaveRestoreSize
  controlStackSize := .ofNat sizes.controlStackSize
  debugMemorySize := .ofNat sizes.debugMemorySize
  xccCount := .ofNat sizes.xccCount
  allocationSize := .ofNat sizes.allocationSize

/-- `compute_cwsr_layout`. -/
def computeCwsrLayout (node : Node) : Except String CwsrLayout := do
  let sizes ← cwsrSizes node
  return sizes.layout

/-- `CwsrHeader`; the other fields stay zero. -/
structure CwsrHeader where
  debugOffset : UInt32
  debugSize : UInt32
  errorReason : UInt64
  errorEventId : UInt32

/-- The headers that `initialize_cwsr` writes, each with its offset in the area. -/
def initializeCwsr (layout : CwsrLayout) (errorReasonAddress : UInt64) (errorEventId : UInt32) :
    List (ℕ × CwsrHeader) :=
  (List.range layout.xccCount.toNat).map fun xcc =>
    (xcc * layout.contextSaveRestoreSize.toNat,
      { debugOffset := (layout.xccCount - .ofNat xcc) * layout.contextSaveRestoreSize
        debugSize := layout.debugMemorySize * layout.xccCount
        errorReason := errorReasonAddress
        errorEventId := errorEventId })

/-! ## The sizes -/

variable {message : String}

theorem checkedAdd_eq_ok {left right sum : ℕ} (h : checkedAdd left right message = .ok sum) :
    left + right = sum :=
  Except.ok.inj (after_refuse_eq_ok.mp h).2

theorem checkedMultiply_eq_ok {left right product : ℕ}
    (h : checkedMultiply left right message = .ok product) : left * right = product :=
  Except.ok.inj (after_refuse_eq_ok.mp h).2

theorem checkedAlignUp_eq_ok {value alignment aligned : ℕ} (hpos : 0 < alignment)
    (hle : alignment ≤ 2 ^ 64) (h : checkedAlignUp value alignment message = .ok aligned) :
    value ≤ aligned ∧ aligned < 2 ^ 64 := by
  obtain ⟨hfits, h⟩ := after_refuse_eq_ok.mp h
  obtain rfl := Except.ok.inj h
  have hle := Nat.div_mul_le_self (value + alignment - 1) alignment
  have hlt := Nat.lt_div_mul_add hpos (a := value + alignment - 1)
  omega

/-- A derived control stack has room for a header. -/
theorem le_derivedControlStack {gfxVersion : UInt32} {waveCount size : ℕ}
    (h : derivedControlStack gfxVersion waveCount = .ok size) : cwsrHeaderSize ≤ size := by
  obtain ⟨payload, -, h⟩ := bind_eq_ok.mp h
  obtain ⟨unaligned, hsum, h⟩ := bind_eq_ok.mp h
  obtain ⟨aligned, halign, h⟩ := bind_eq_ok.mp h
  have hsum := checkedAdd_eq_ok hsum
  have hle := (checkedAlignUp_eq_ok (by norm_num) (by norm_num) halign).1
  obtain rfl := Except.ok.inj h
  rw [cwsrHeaderSize] at hsum ⊢
  split
  · exact le_min (by omega) (by norm_num)
  · omega

/-- What is known of the sizes of an accepted node. -/
structure CwsrSizes.Accepted (node : Node) (sizes : CwsrSizes) : Prop where
  xccCount_pos : 0 < sizes.xccCount
  xccCount_lt : sizes.xccCount < 2 ^ 32
  context_le : sizes.xccCount * sizes.contextSaveRestoreSize < 2 ^ 32
  debug_le : sizes.xccCount * sizes.debugMemorySize < 2 ^ 32
  controlStack_lt : sizes.controlStackSize < 2 ^ 32
  total_le : sizes.xccCount * (sizes.contextSaveRestoreSize + sizes.debugMemorySize) ≤
    sizes.allocationSize
  allocation_lt : sizes.allocationSize < 2 ^ 64
  chosen : ∃ derived, derivedSizes node (partitions node) = .ok derived ∧
    sizes.controlStackSize = derived.stackOf node ∧
    sizes.contextSaveRestoreSize = derived.contextOf node

/-- A product that the code compares by a division. -/
theorem mul_lt_of_le_div {count size : ℕ} (hpos : 0 < count) (h : size ≤ (2 ^ 32 - 1) / count) :
    count * size < 2 ^ 32 := by
  have := (Nat.le_div_iff_mul_le hpos).mp h
  rw [Nat.mul_comm]
  omega

/-- The sizes of a node that is accepted. -/
theorem accepted_of_cwsrSizes {node : Node} {sizes : CwsrSizes} (h : cwsrSizes node = .ok sizes) :
    sizes.Accepted node := by
  obtain ⟨derived, hderived, h⟩ := bind_eq_ok.mp h
  obtain ⟨unaligned, -, h⟩ := bind_eq_ok.mp h
  obtain ⟨debug, -, h⟩ := bind_eq_ok.mp h
  obtain ⟨hfits, h⟩ := after_refuse_eq_ok.mp h
  obtain ⟨perXcc, hper, h⟩ := bind_eq_ok.mp h
  obtain ⟨total, htotal, h⟩ := bind_eq_ok.mp h
  obtain ⟨allocation, halloc, h⟩ := bind_eq_ok.mp h
  obtain rfl := Except.ok.inj h
  have hper := checkedAdd_eq_ok hper
  have htotal := checkedMultiply_eq_ok htotal
  obtain ⟨hle, hlt⟩ := checkedAlignUp_eq_ok (by norm_num) (by norm_num) halloc
  have hxcc : 0 < (partitions node).toNat := by
    unfold partitions
    split
    · decide
    · rename_i hne
      exact Nat.pos_of_ne_zero fun hzero => hne (UInt32.toNat_inj.mp hzero)
  simp only [not_or, not_lt] at hfits
  obtain ⟨hcontrol, -, -, hcontextFits, hdebugFits⟩ := hfits
  refine ⟨hxcc, UInt32.toNat_lt _, mul_lt_of_le_div hxcc hcontextFits,
    mul_lt_of_le_div hxcc hdebugFits, Nat.lt_of_le_sub_one (by norm_num) hcontrol, ?_, hlt,
    derived, hderived, rfl, rfl⟩
  rw [hper, Nat.mul_comm, htotal]
  exact hle

/-! ## The headers -/

/-- The part of a partition that is reported has room for a header, and the one that is used,
reported or derived, has room for the control stack that is used. -/
def SizesAgree (node : Node) (derived : DerivedSizes) : Prop :=
  (node.cwsrSize ≠ 0 → cwsrHeaderSize ≤ node.cwsrSize.toNat) ∧
    derived.stackOf node ≤ derived.contextOf node

/-- The derived sizes have room for a header, and for the control stack. -/
theorem derivedSizes_room {node : Node} {xccCount : UInt32} {derived : DerivedSizes}
    (h : derivedSizes node xccCount = .ok derived) :
    cwsrHeaderSize ≤ derived.controlStackSize ∧
      derived.controlStackSize ≤ derived.contextSaveRestoreSize := by
  obtain ⟨-, h⟩ := after_refuse_eq_ok.mp h
  obtain ⟨simdCount, -, h⟩ := bind_eq_ok.mp h
  obtain ⟨waveCount, -, h⟩ := bind_eq_ok.mp h
  obtain ⟨stack, hstack, h⟩ := bind_eq_ok.mp h
  obtain ⟨workgroup, -, h⟩ := bind_eq_ok.mp h
  obtain ⟨context, hcontext, h⟩ := bind_eq_ok.mp h
  obtain rfl := Except.ok.inj h
  have hcontext := checkedAdd_eq_ok hcontext
  exact ⟨le_derivedControlStack hstack, by dsimp only; omega⟩

section Headers

variable {node : Node} {sizes : CwsrSizes}

/-- No field of a layout is cut. -/
theorem CwsrSizes.Accepted.toNat (h : sizes.Accepted node) :
    sizes.layout.contextSaveRestoreSize.toNat = sizes.contextSaveRestoreSize ∧
      sizes.layout.controlStackSize.toNat = sizes.controlStackSize ∧
      sizes.layout.debugMemorySize.toNat = sizes.debugMemorySize ∧
      sizes.layout.xccCount.toNat = sizes.xccCount ∧
      sizes.layout.allocationSize.toNat = sizes.allocationSize := by
  have hcontext := (Nat.le_mul_of_pos_left _ h.xccCount_pos).trans_lt h.context_le
  have hdebug := (Nat.le_mul_of_pos_left _ h.xccCount_pos).trans_lt h.debug_le
  exact ⟨UInt32.toNat_ofNat_of_lt' hcontext, UInt32.toNat_ofNat_of_lt' h.controlStack_lt,
    UInt32.toNat_ofNat_of_lt' hdebug, UInt32.toNat_ofNat_of_lt' h.xccCount_lt,
    UInt64.toNat_ofNat_of_lt' h.allocation_lt⟩

/-- Sizes agree exactly if the part has room for a header and for the control stack. -/
theorem CwsrSizes.Accepted.room_iff (h : sizes.Accepted node) :
    ∃ derived, derivedSizes node (partitions node) = .ok derived ∧
      ((cwsrHeaderSize ≤ sizes.contextSaveRestoreSize ∧
        sizes.controlStackSize ≤ sizes.contextSaveRestoreSize) ↔ SizesAgree node derived) := by
  obtain ⟨derived, hderived, hstack, hcontext⟩ := h.chosen
  obtain ⟨hheader, hle⟩ := derivedSizes_room hderived
  refine ⟨derived, hderived, ?_⟩
  rw [hstack, hcontext]
  refine and_congr_left fun _ => ?_
  unfold DerivedSizes.contextOf
  split
  · next hreported => exact ⟨fun hroom _ => hroom, fun hroom => hroom hreported⟩
  · next hreported => exact ⟨fun _ hne => absurd hne hreported, fun _ => hheader.trans hle⟩

/-- The two computed fields of a header, in a layout without cut fields. -/
theorem CwsrSizes.Accepted.header (h : sizes.Accepted node) {xcc : ℕ} (hxcc : xcc < sizes.xccCount) :
    ((sizes.layout.xccCount - .ofNat xcc) * sizes.layout.contextSaveRestoreSize).toNat =
        (sizes.xccCount - xcc) * sizes.contextSaveRestoreSize ∧
      (sizes.layout.debugMemorySize * sizes.layout.xccCount).toNat =
        sizes.xccCount * sizes.debugMemorySize := by
  obtain ⟨hcontext, -, hdebug, hcount, -⟩ := h.toNat
  have hindex : (UInt32.ofNat xcc).toNat = xcc :=
    UInt32.toNat_ofNat_of_lt' (hxcc.trans h.xccCount_lt)
  have hle : (UInt32.ofNat xcc) ≤ sizes.layout.xccCount := by
    rw [UInt32.le_iff_toNat_le, hindex, hcount]
    exact hxcc.le
  have hoffset : (sizes.xccCount - xcc) * sizes.contextSaveRestoreSize < 2 ^ 32 :=
    (Nat.mul_le_mul_right _ (Nat.sub_le _ _)).trans_lt h.context_le
  constructor
  · rw [UInt32.toNat_mul, UInt32.toNat_sub_of_le _ _ hle, hindex, hcount, hcontext,
      Nat.mod_eq_of_lt hoffset]
  · rw [UInt32.toNat_mul, hdebug, hcount, Nat.mul_comm, Nat.mod_eq_of_lt h.debug_le]

/-- The headers are before the debug area and apart from each other exactly if a part has room for
one. -/
theorem CwsrSizes.Accepted.headers_iff (h : sizes.Accepted node) {reason : UInt64}
    {event : UInt32} :
    ((∀ entry ∈ initializeCwsr sizes.layout reason event,
        entry.1 + cwsrHeaderSize ≤ sizes.xccCount * sizes.contextSaveRestoreSize) ∧
      (initializeCwsr sizes.layout reason event).Pairwise (fun first second =>
        first.1 + cwsrHeaderSize ≤ second.1)) ↔
    cwsrHeaderSize ≤ sizes.contextSaveRestoreSize := by
  obtain ⟨hcontext, -, -, hcount, -⟩ := h.toNat
  have hstep : ∀ first, (first + 1) * sizes.contextSaveRestoreSize =
      first * sizes.contextSaveRestoreSize + sizes.contextSaveRestoreSize := fun first => by
    rw [Nat.add_mul, Nat.one_mul]
  constructor
  · rintro ⟨hbefore, -⟩
    -- the last header is what the debug area follows
    have hlast := hbefore _ (List.mem_map.mpr ⟨sizes.xccCount - 1, List.mem_range.mpr
      (by rw [hcount]; exact Nat.sub_lt h.xccCount_pos Nat.zero_lt_one), rfl⟩)
    have hsucc := hstep (sizes.xccCount - 1)
    rw [Nat.sub_add_cancel h.xccCount_pos] at hsucc
    simp only [hcontext] at hlast
    omega
  · intro hroom
    have hnext : ∀ {first second}, first < second →
        first * sizes.contextSaveRestoreSize + cwsrHeaderSize ≤
          second * sizes.contextSaveRestoreSize := by
      intro first second hlt
      have hle := Nat.mul_le_mul_right sizes.contextSaveRestoreSize hlt
      have := hstep first
      rw [Nat.succ_eq_add_one] at hle
      omega
    constructor
    · intro entry hmem
      obtain ⟨xcc, hxcc, rfl⟩ := List.mem_map.mp hmem
      rw [List.mem_range, hcount] at hxcc
      simp only [hcontext]
      exact hnext hxcc
    · rw [initializeCwsr, List.pairwise_map, hcontext]
      exact List.pairwise_lt_range.imp hnext

/-- In an accepted layout no field wraps, and all headers lead to one debug area inside of the
allocation. The headers are in the allocation, apart from each other and from the debug area, and
the control stack fits into a part, exactly if the sizes that are used agree. -/
theorem cwsr_area_well_formed {layout : CwsrLayout} {reason : UInt64} {event : UInt32}
    (h : computeCwsrLayout node = .ok layout) :
    (∃ sizes, cwsrSizes node = .ok sizes ∧
      layout.contextSaveRestoreSize.toNat = sizes.contextSaveRestoreSize ∧
      layout.controlStackSize.toNat = sizes.controlStackSize ∧
      layout.debugMemorySize.toNat = sizes.debugMemorySize ∧
      layout.xccCount.toNat = sizes.xccCount ∧
      layout.allocationSize.toNat = sizes.allocationSize) ∧
    (∀ entry ∈ initializeCwsr layout reason event,
      entry.1 + entry.2.debugOffset.toNat =
        layout.xccCount.toNat * layout.contextSaveRestoreSize.toNat ∧
      entry.2.debugSize.toNat = layout.xccCount.toNat * layout.debugMemorySize.toNat ∧
      entry.1 + entry.2.debugOffset.toNat + entry.2.debugSize.toNat ≤
        layout.allocationSize.toNat) ∧
    ∃ derived, derivedSizes node (partitions node) = .ok derived ∧
      (((∀ entry ∈ initializeCwsr layout reason event,
          entry.1 + cwsrHeaderSize ≤ layout.xccCount.toNat * layout.contextSaveRestoreSize.toNat ∧
          entry.1 + cwsrHeaderSize ≤ layout.allocationSize.toNat) ∧
        (initializeCwsr layout reason event).Pairwise (fun first second =>
          first.1 + cwsrHeaderSize ≤ second.1) ∧
        layout.controlStackSize ≤ layout.contextSaveRestoreSize) ↔ SizesAgree node derived) := by
  obtain ⟨sizes, hsizes, h⟩ := bind_eq_ok.mp h
  obtain rfl := Except.ok.inj h
  have haccepted := accepted_of_cwsrSizes hsizes
  obtain ⟨hcontext, hcontrol, hdebug, hcount, hallocation⟩ := haccepted.toNat
  have htotal := haccepted.total_le
  rw [Nat.mul_add] at htotal
  refine ⟨⟨sizes, hsizes, hcontext, hcontrol, hdebug, hcount, hallocation⟩, ?_, ?_⟩
  · intro entry hmem
    obtain ⟨xcc, hxcc, rfl⟩ := List.mem_map.mp hmem
    rw [List.mem_range, hcount] at hxcc
    obtain ⟨hoffset, hsize⟩ := haccepted.header hxcc
    have hsum : xcc * sizes.contextSaveRestoreSize +
        (sizes.xccCount - xcc) * sizes.contextSaveRestoreSize =
        sizes.xccCount * sizes.contextSaveRestoreSize := by
      rw [← Nat.add_mul, Nat.add_sub_cancel' hxcc.le]
    simp only [hoffset, hsize, hcontext, hcount, hdebug, hallocation, hsum, true_and]
    exact htotal
  · obtain ⟨derived, hderived, hroom⟩ := haccepted.room_iff
    refine ⟨derived, hderived, Iff.trans ?_ hroom⟩
    rw [UInt32.le_iff_toNat_le, hcontrol, hcontext, hcount, hallocation,
      ← @CwsrSizes.Accepted.headers_iff _ _ haccepted reason event]
    constructor
    · rintro ⟨hbefore, hapart, hstack⟩
      exact ⟨⟨fun entry hmem => (hbefore entry hmem).1, hapart⟩, hstack⟩
    · rintro ⟨⟨hbefore, hapart⟩, hstack⟩
      exact ⟨fun entry hmem => ⟨hbefore entry hmem, (hbefore entry hmem).trans (by omega)⟩, hapart,
        hstack⟩

end Headers

/-- A GPU with two partitions, and the sizes that the kernel reports for it. -/
def partitionedNode (cwsrSize controlStackSize : UInt32) : Node where
  simdCount := 8
  simdPerComputeUnit := 2
  wavefrontSize := 32
  maximumWavesPerSimd := 16
  shaderEngineCount := 1
  maximumScratchWavesPerComputeUnit := 32
  xccCount := 2
  architecture := ⟨11, 0, 0⟩
  ldsSizeKb := 64
  cwsrSize := cwsrSize
  controlStackSize := controlStackSize

/-- With a control stack that is reported and a part that is derived, the headers of two partitions
are apart. -/
theorem partitioned_headers_apart :
    ∃ layout, computeCwsrLayout (partitionedNode 0 8192) = .ok layout ∧
      (initializeCwsr layout 0 0).length = 2 ∧
      (initializeCwsr layout 0 0).Pairwise (fun first second =>
        first.1 + cwsrHeaderSize ≤ second.1) := by
  have hlayout : computeCwsrLayout (partitionedNode 0 8192) =
      .ok ⟨962560, 8192, 2048, 2, 1929216⟩ := by decide +kernel
  obtain ⟨derived, hderived, hagree⟩ := (@cwsr_area_well_formed _ _ 0 0 hlayout).2.2
  have hsizes : derivedSizes (partitionedNode 0 8192) 2 = .ok ⟨64, 4096, 962560⟩ := by
    decide +kernel
  obtain rfl : (⟨64, 4096, 962560⟩ : DerivedSizes) = derived :=
    Except.ok.inj (hsizes.symm.trans hderived)
  exact ⟨_, hlayout, by decide, (hagree.mpr ⟨fun hne => absurd rfl hne, by decide⟩).2.1⟩

/-- A reported size of sixteen bytes for a part is accepted: the headers of the partitions overlap,
the first of them reaches into the debug area, and the control stack is larger than the part. -/
theorem partitioned_headers_overlap :
    ∃ layout, computeCwsrLayout (partitionedNode 16 24576) = .ok layout ∧
      (initializeCwsr layout 0 0).map Prod.fst = [0, 16] ∧
      (initializeCwsr layout 0 0).map (fun entry => entry.1 + entry.2.debugOffset.toNat) =
        [32, 32] ∧
      layout.contextSaveRestoreSize < layout.controlStackSize :=
  ⟨⟨16, 24576, 2048, 2, 8192⟩, by decide +kernel, by decide, by decide, by decide⟩

end LightRocm.Transport.Cwsr
