import LightRocm.Arch.Node
import LightRocm.Lib.Alignment
import LightRocm.Status

/-!
# Scratch memory of a gfx11 queue

`queue_scratch_requirements` and `make_queue_scratch_control` from
`arch/gfx11/scratch.cpp`: how much memory the private segments of all waves of a
queue need, and the register values that describe it to the hardware.
-/

namespace LightRocm.Gfx11

open Alignment (alignUp)
open LightRocm.Topology

/-- `kScratchDescriptorAlignment`. -/
def scratchDescriptorAlignment : UInt64 := 256

/-- `kScratchLanesPerWave`. -/
def scratchLanesPerWave : UInt64 := 64

/-- `kPageSize`. -/
def pageSize : UInt64 := 4096

/-- `kMaximumPrivateSegmentSize`. -/
def maximumPrivateSegmentSize : UInt32 := 262128

/-- `kMaximumWaveSizeUnits`. -/
def maximumWaveSizeUnits : UInt64 := ((1 : UInt64) <<< 15) - 1

/-- `kMaximumWavesPerShaderEngine`. -/
def maximumWavesPerShaderEngine : UInt64 := ((1 : UInt64) <<< 12) - 1

/-- `kMaximumDescriptorAddress`. -/
def maximumDescriptorAddress : UInt64 := ((1 : UInt64) <<< 48) - 1

/-- `kScratchSrdWord3`. -/
def scratchSrdWord3 : UInt32 := 0x20814fac

/-- `QueueScratchError`, for the failures. -/
inductive QueueScratchError where
  | unsupportedArchitecture
  | invalidTopology
  | missingScratchAperture
  | invalidScratchAperture
  | privateSegmentTooLarge
  | sizeOverflow
  | scratchApertureTooSmall
  | registerOverflow
  | invalidBackingAddress
  deriving DecidableEq

/-- A failure, `QueueScratchStatus`. -/
structure QueueScratchStatus where
  error : QueueScratchError
  message : String

/-- `QueueScratchRequirements`. -/
structure QueueScratchRequirements where
  privateSegmentSize : UInt32 := 0
  allocationSize : UInt64 := 0
  backingSizePerXcc : UInt64 := 0
  waveSizeUnits : UInt32 := 0
  wavesPerShaderEngine : UInt32 := 0

/-- `ScratchAperture`. -/
structure ScratchAperture where
  base : UInt64
  size : UInt64

/-- `QueueScratchControl`; the resource descriptor is an array of four words. -/
structure QueueScratchControl where
  resourceDescriptor : Fin 4 → UInt32
  computeTmpringSize : UInt32 := 0
  backingMemoryLocation : UInt64 := 0
  backingMemoryByteSize : UInt64 := 0
  wave64LaneByteSize : UInt32 := 0

/-- `failure`. -/
def failure {α : Type} (error : QueueScratchError) (message : String) :
    Except QueueScratchStatus α := .error ⟨error, message⟩

/-- `multiply_overflows`. -/
def multiplyOverflows (left right : UInt64) : Bool :=
  right != 0 && decide (maximumWord / right < left)

/-- `round_up_overflows`. -/
def roundUpOverflows (value alignment : UInt64) : Bool :=
  decide (maximumWord - (alignment - 1) < value)

/-- `std::min`. -/
def minimum (left right : UInt64) : UInt64 := if right < left then right else left

/-- Multiply a size by one factor after the other; nothing if a product overflows. -/
def multiplyAll : UInt64 → List UInt64 → Option UInt64
  | rawSize, [] => some rawSize
  | rawSize, factor :: rest =>
    if multiplyOverflows rawSize factor then none else multiplyAll (rawSize * factor) rest

/-- The sizes of `queue_scratch_requirements` for a private segment that is not empty, from
the size of the backing memory on. -/
def sizeWaves (node : Node) (privateSegmentSize : UInt32) (aperture : ScratchAperture)
    (allocationSize : UInt64) : Except QueueScratchStatus QueueScratchRequirements :=
  if aperture.size < allocationSize then
    failure .scratchApertureTooSmall "scratch backing exceeds the topology aperture"
  else if 0xffffffff < allocationSize then
    failure .registerOverflow "scratch SRD record count exceeds 32 bits"
  else
    let waveBytes := privateSegmentSize.toUInt64 * scratchLanesPerWave
    let waveSizeUnits :=
      (waveBytes + scratchDescriptorAlignment - 1) / scratchDescriptorAlignment
    if waveSizeUnits = 0 ∨ maximumWaveSizeUnits < waveSizeUnits then
      failure .registerOverflow "scratch wave size exceeds COMPUTE_TMPRING_SIZE"
    else
      let totalWaves := allocationSize / (waveSizeUnits * scratchDescriptorAlignment)
      let configuredWaves := minimum (totalWaves / node.shaderEngineCount.toUInt64)
        (node.computeUnitCount.toUInt64 * node.maximumScratchWavesPerComputeUnit.toUInt64)
      if configuredWaves = 0 ∨ maximumWavesPerShaderEngine < configuredWaves then
        failure .registerOverflow "scratch wave count exceeds COMPUTE_TMPRING_SIZE"
      else .ok
        { privateSegmentSize := privateSegmentSize
          allocationSize := allocationSize
          backingSizePerXcc := allocationSize
          waveSizeUnits := waveSizeUnits.toUInt32
          wavesPerShaderEngine := configuredWaves.toUInt32 }

/-- `queue_scratch_requirements` for a given aperture. -/
def queueScratchRequirementsIn (node : Node) (privateSegmentSize : UInt32)
    (aperture : ScratchAperture) : Except QueueScratchStatus QueueScratchRequirements :=
  if node.architecture.major ≠ 11 ∨ node.architecture.minor ≠ 0 ∨
      node.architecture.stepping ≠ 1 then
    failure .unsupportedArchitecture "queue scratch currently supports only gfx1101"
  else if node.isGpu = false ∨ node.computeUnitCount = 0 ∨ node.wavefrontSize ≠ 32 ∨
      node.maximumWavesPerSimd = 0 ∨ node.shaderEngineCount = 0 ∨
      node.maximumScratchWavesPerComputeUnit = 0 ∨ node.xccCount ≠ 1 then
    failure .invalidTopology "gfx1101 scratch requires complete single-XCC topology"
  else if aperture.size = 0 ∨ aperture.base = 0 ∨
      aperture.base % scratchBackingAlignment ≠ 0 then
    failure .invalidScratchAperture "GPU topology has an invalid scratch aperture"
  else if privateSegmentSize = 0 then .ok { privateSegmentSize := privateSegmentSize }
  else if maximumPrivateSegmentSize < privateSegmentSize then
    failure .privateSegmentTooLarge "private segment exceeds the gfx1101 queue limit"
  else
    match multiplyAll privateSegmentSize.toUInt64 [scratchLanesPerWave,
        node.maximumScratchWavesPerComputeUnit.toUInt64, node.computeUnitCount.toUInt64] with
    | none => failure .sizeOverflow "scratch backing size overflows uint64"
    | some rawSize =>
      if roundUpOverflows rawSize pageSize then
        failure .sizeOverflow "page-aligned scratch backing size overflows uint64"
      else sizeWaves node privateSegmentSize aperture (alignUp rawSize pageSize)

/-- `scratch_aperture`: the last scratch bank and the number of scratch banks. -/
def scratchAperture (node : Node) : Option MemoryBank × ℕ :=
  let banks := node.memoryBanks.filter fun bank => decide (bank.heapType = .scratch)
  (banks.getLast?, banks.length)

/-- The aperture of the topology, with which the calls without one start. -/
def topologyAperture (node : Node) : Except QueueScratchStatus ScratchAperture :=
  match scratchAperture node with
  | (_, 0) => failure .missingScratchAperture "GPU topology has no scratch aperture"
  | (some aperture, 1) => .ok ⟨aperture.virtualBaseAddress, aperture.size⟩
  | _ => failure .invalidScratchAperture "GPU topology has an invalid scratch aperture"

/-- `queue_scratch_requirements`. -/
def queueScratchRequirements (node : Node) (privateSegmentSize : UInt32) :
    Except QueueScratchStatus QueueScratchRequirements :=
  (topologyAperture node).bind (queueScratchRequirementsIn node privateSegmentSize)

/-- `make_queue_scratch_control` for a given aperture. -/
def makeQueueScratchControlIn (node : Node) (privateSegmentSize : UInt32)
    (backingGpuAddress : UInt64) (aperture : ScratchAperture) :
    Except QueueScratchStatus (QueueScratchRequirements × QueueScratchControl) :=
  match queueScratchRequirementsIn node privateSegmentSize aperture with
  | .error status => .error status
  | .ok requirements =>
    if requirements.allocationSize = 0 then
      if backingGpuAddress ≠ 0 then
        failure .invalidBackingAddress "scratch-free queue must not have a backing address"
      else .ok (requirements, { resourceDescriptor := ![0, (1 : UInt32) <<< 30, 0, scratchSrdWord3] })
    else if backingGpuAddress = 0 ∨ backingGpuAddress % scratchBackingAlignment ≠ 0 ∨
        maximumDescriptorAddress < backingGpuAddress ∨
        maximumDescriptorAddress - backingGpuAddress < requirements.allocationSize - 1 then
      failure .invalidBackingAddress "scratch backing must be a 64 KiB-aligned 48-bit range"
    else .ok (requirements,
      { resourceDescriptor := ![backingGpuAddress.toUInt32,
          ((backingGpuAddress >>> 32) &&& 0xffff).toUInt32 ||| ((1 : UInt32) <<< 30),
          requirements.backingSizePerXcc.toUInt32, scratchSrdWord3]
        computeTmpringSize :=
          (requirements.waveSizeUnits <<< 12) ||| requirements.wavesPerShaderEngine
        backingMemoryLocation := backingGpuAddress
        backingMemoryByteSize := requirements.backingSizePerXcc
        wave64LaneByteSize := privateSegmentSize })

/-- `make_queue_scratch_control`. -/
def makeQueueScratchControl (node : Node) (privateSegmentSize : UInt32)
    (backingGpuAddress : UInt64) :
    Except QueueScratchStatus (QueueScratchRequirements × QueueScratchControl) :=
  (topologyAperture node).bind
    (makeQueueScratchControlIn node privateSegmentSize backingGpuAddress)

section Sizes

variable {node : Node} {privateSegmentSize : UInt32} {aperture : ScratchAperture}
  {requirements : QueueScratchRequirements}

/-- A product that passes the check does not wrap around. -/
theorem toNat_mul_of_not_overflows {left right : UInt64}
    (h : multiplyOverflows left right = false) :
    (left * right).toNat = left.toNat * right.toNat := by
  rw [UInt64.toNat_mul]
  apply Nat.mod_eq_of_lt
  simp only [multiplyOverflows, bne_eq_false_iff_eq, Bool.and_eq_false_iff, decide_eq_false_iff_not,
    UInt64.lt_iff_toNat_lt, UInt64.toNat_div, not_lt] at h
  rcases h with hzero | hle
  · simp [hzero]
  · have hmax : maximumWord.toNat = 2 ^ 64 - 1 := rfl
    calc left.toNat * right.toNat ≤ maximumWord.toNat / right.toNat * right.toNat :=
          Nat.mul_le_mul_right _ hle
      _ ≤ maximumWord.toNat := Nat.div_mul_le_self _ _
      _ < 2 ^ 64 := by omega

/-- The product of the loop is the product of the numbers. -/
theorem toNat_multiplyAll {rawSize result : UInt64} {factors : List UInt64}
    (h : multiplyAll rawSize factors = some result) :
    result.toNat = rawSize.toNat * (factors.map UInt64.toNat).prod := by
  induction factors generalizing rawSize with
  | nil =>
    obtain rfl : rawSize = result := by simpa [multiplyAll] using h
    simp
  | cons factor rest ih =>
    simp only [multiplyAll, Option.ite_none_left_eq_some, Bool.not_eq_true] at h
    rw [ih h.2, toNat_mul_of_not_overflows h.1, List.map_cons, List.prod_cons, Nat.mul_assoc]

/-- The smaller of two words. -/
theorem toNat_minimum (left right : UInt64) :
    (minimum left right).toNat = min left.toNat right.toNat := by
  unfold minimum
  split <;> rename_i h <;> rw [UInt64.lt_iff_toNat_lt] at h <;> omega

/-- The bytes the private segments of all waves need together. -/
def scratchBytes (node : Node) (privateSegmentSize : UInt32) : ℕ :=
  privateSegmentSize.toNat * 64 * node.maximumScratchWavesPerComputeUnit.toNat *
    node.computeUnitCount.toNat

/-- The units of 256 bytes that a wave needs. -/
def unitsPerWave (privateSegmentSize : UInt32) : ℕ := (privateSegmentSize.toNat * 64 + 255) / 256

/-- The waves of one shader engine, for backing memory of a given size. -/
def wavesPerEngine (node : Node) (privateSegmentSize : UInt32) (allocationSize : ℕ) : ℕ :=
  min (allocationSize / (unitsPerWave privateSegmentSize * 256) / node.shaderEngineCount.toNat)
    (node.computeUnitCount.toNat * node.maximumScratchWavesPerComputeUnit.toNat)

/-- The units of a wave are computed without wrapping around. -/
theorem toNat_waveSizeUnits (privateSegmentSize : UInt32) :
    ((privateSegmentSize.toUInt64 * scratchLanesPerWave + scratchDescriptorAlignment - 1) /
      scratchDescriptorAlignment).toNat = unitsPerWave privateSegmentSize := by
  have hlt := privateSegmentSize.toNat_lt
  have hlanes : scratchLanesPerWave.toNat = 64 := rfl
  have halign : scratchDescriptorAlignment.toNat = 256 := rfl
  have hbytes : (privateSegmentSize.toUInt64 * scratchLanesPerWave).toNat =
      privateSegmentSize.toNat * 64 := by
    rw [UInt64.toNat_mul, UInt32.toNat_toUInt64, hlanes]
    exact Nat.mod_eq_of_lt (by omega)
  rw [UInt64.toNat_div, Alignment.toNat_add_sub_one (by omega) (by omega), hbytes, halign]
  rfl

/-- The waves of an engine are computed without wrapping around. -/
theorem toNat_configuredWaves (node : Node) (privateSegmentSize : UInt32)
    (allocationSize : UInt64) {waveSizeUnits : UInt64}
    (hunits : waveSizeUnits.toNat = unitsPerWave privateSegmentSize)
    (hle : unitsPerWave privateSegmentSize < 2 ^ 15) :
    (minimum (allocationSize / (waveSizeUnits * scratchDescriptorAlignment) /
        node.shaderEngineCount.toUInt64)
      (node.computeUnitCount.toUInt64 * node.maximumScratchWavesPerComputeUnit.toUInt64)).toNat =
      wavesPerEngine node privateSegmentSize allocationSize.toNat := by
  have halign : scratchDescriptorAlignment.toNat = 256 := rfl
  have hwave : (waveSizeUnits * scratchDescriptorAlignment).toNat =
      unitsPerWave privateSegmentSize * 256 := by
    rw [UInt64.toNat_mul, hunits, halign]
    exact Nat.mod_eq_of_lt (by omega)
  have hall : (node.computeUnitCount.toUInt64 *
      node.maximumScratchWavesPerComputeUnit.toUInt64).toNat =
      node.computeUnitCount.toNat * node.maximumScratchWavesPerComputeUnit.toNat := by
    rw [UInt64.toNat_mul, UInt32.toNat_toUInt64, UInt32.toNat_toUInt64]
    refine Nat.mod_eq_of_lt (lt_of_lt_of_eq (Nat.mul_lt_mul'' node.computeUnitCount.toNat_lt
      node.maximumScratchWavesPerComputeUnit.toNat_lt) (by norm_num))
  rw [toNat_minimum, UInt64.toNat_div, UInt64.toNat_div, hwave, hall, UInt32.toNat_toUInt64]
  rfl

/-- What the sizes are, once they have passed the checks. -/
theorem sizeWaves_ok {allocationSize : UInt64}
    (h : sizeWaves node privateSegmentSize aperture allocationSize = .ok requirements) :
    allocationSize.toNat < 2 ^ 32 ∧ unitsPerWave privateSegmentSize < 2 ^ 15 ∧
    0 < wavesPerEngine node privateSegmentSize allocationSize.toNat ∧
    wavesPerEngine node privateSegmentSize allocationSize.toNat < 2 ^ 12 ∧
    requirements.allocationSize = allocationSize ∧
    requirements.backingSizePerXcc = allocationSize ∧
    requirements.waveSizeUnits.toNat = unitsPerWave privateSegmentSize ∧
    requirements.wavesPerShaderEngine.toNat =
      wavesPerEngine node privateSegmentSize allocationSize.toNat := by
  unfold sizeWaves failure at h
  dsimp only at h
  split_ifs at h with hfits hrecords hunits hwaves
  obtain rfl := Except.ok.inj h
  simp only [not_or, UInt64.lt_iff_toNat_lt, not_lt] at hrecords hunits hwaves
  have hunitsEq := toNat_waveSizeUnits privateSegmentSize
  have hmaxUnits : maximumWaveSizeUnits.toNat = 2 ^ 15 - 1 := rfl
  have hmaxWaves : maximumWavesPerShaderEngine.toNat = 2 ^ 12 - 1 := rfl
  have hrecordsLe : allocationSize.toNat ≤ 0xffffffff := hrecords
  have hunitsLe := hunits.2
  rw [hunitsEq, hmaxUnits] at hunitsLe
  have hwavesEq := toNat_configuredWaves node privateSegmentSize allocationSize hunitsEq (by omega)
  have hwavesLe := hwaves.2
  rw [hwavesEq, hmaxWaves] at hwavesLe
  have hwavesPos : 0 < wavesPerEngine node privateSegmentSize allocationSize.toNat := by
    rw [← hwavesEq]
    exact Nat.pos_of_ne_zero fun hzero => hwaves.1 (UInt64.toNat_inj.mp hzero)
  refine ⟨by omega, by omega, hwavesPos, by omega, rfl, rfl, ?_, ?_⟩
  · rw [UInt64.toNat_toUInt32, hunitsEq]
    exact Nat.mod_eq_of_lt (by omega)
  · rw [UInt64.toNat_toUInt32, hwavesEq]
    exact Nat.mod_eq_of_lt (by omega)

/-- What accepted sizes are: empty for an empty private segment, and otherwise those of
`sizeWaves` for the bytes of all waves, rounded up to pages. -/
theorem queueScratchRequirementsIn_ok
    (h : queueScratchRequirementsIn node privateSegmentSize aperture = .ok requirements) :
    (privateSegmentSize = 0 ∧ requirements = { privateSegmentSize := privateSegmentSize }) ∨
    (privateSegmentSize ≠ 0 ∧ scratchBytes node privateSegmentSize + 4095 < 2 ^ 64 ∧
      ∃ allocationSize : UInt64,
        allocationSize.toNat = (scratchBytes node privateSegmentSize + 4095) / 4096 * 4096 ∧
        sizeWaves node privateSegmentSize aperture allocationSize = .ok requirements) := by
  unfold queueScratchRequirementsIn failure at h
  split_ifs at h with harch htopology haperture hzero hlarge
  · exact Or.inl ⟨hzero, (Except.ok.inj h).symm⟩
  · right
    cases hraw : multiplyAll privateSegmentSize.toUInt64 [scratchLanesPerWave,
        node.maximumScratchWavesPerComputeUnit.toUInt64, node.computeUnitCount.toUInt64] with
    | none =>
      rw [hraw] at h
      cases h
    | some rawSize =>
      rw [hraw] at h
      dsimp only at h
      split_ifs at h with hround
      have hbytes : rawSize.toNat = scratchBytes node privateSegmentSize := by
        have hlanes : scratchLanesPerWave.toNat = 64 := rfl
        rw [toNat_multiplyAll hraw]
        simp only [List.map_cons, List.map_nil, List.prod_cons, List.prod_nil, Nat.mul_one,
          UInt32.toNat_toUInt64, hlanes, scratchBytes, Nat.mul_assoc]
      have hlimit : (maximumWord - (pageSize - 1)).toNat = 2 ^ 64 - 4096 := rfl
      have hfit : rawSize.toNat ≤ 2 ^ 64 - 4096 := by
        simpa only [roundUpOverflows, decide_eq_true_eq, UInt64.lt_iff_toNat_lt, not_lt, hlimit]
          using hround
      refine ⟨hzero, by omega, _, ?_, h⟩
      rw [Alignment.toNat_alignUp (k := 12) (by decide) rfl (by omega), hbytes]
      norm_num

/-- The waves of all shader engines have room in the backing memory. -/
theorem waves_fit (node : Node) (privateSegmentSize : UInt32) (allocationSize : ℕ) :
    wavesPerEngine node privateSegmentSize allocationSize *
      (unitsPerWave privateSegmentSize * 256) * node.shaderEngineCount.toNat ≤ allocationSize := by
  calc wavesPerEngine node privateSegmentSize allocationSize *
        (unitsPerWave privateSegmentSize * 256) * node.shaderEngineCount.toNat
      ≤ allocationSize / (unitsPerWave privateSegmentSize * 256) / node.shaderEngineCount.toNat *
          (unitsPerWave privateSegmentSize * 256) * node.shaderEngineCount.toNat :=
        Nat.mul_le_mul_right _ (Nat.mul_le_mul_right _ (Nat.min_le_left _ _))
    _ = allocationSize / (unitsPerWave privateSegmentSize * 256) /
          node.shaderEngineCount.toNat * node.shaderEngineCount.toNat *
          (unitsPerWave privateSegmentSize * 256) := Nat.mul_right_comm _ _ _
    _ ≤ allocationSize / (unitsPerWave privateSegmentSize * 256) *
          (unitsPerWave privateSegmentSize * 256) :=
        Nat.mul_le_mul_right _ (Nat.div_mul_le_self _ _)
    _ ≤ allocationSize := Nat.div_mul_le_self _ _

/-- The units of a wave hold the private segments of its lanes. -/
theorem lanes_fit (privateSegmentSize : UInt32) :
    privateSegmentSize.toNat * 64 ≤ unitsPerWave privateSegmentSize * 256 := by
  unfold unitsPerWave
  omega

end Sizes

/-- Requirements that are what they should be, computed on naturals. -/
structure QueueScratchRequirements.Exact (requirements : QueueScratchRequirements) (node : Node)
    (privateSegmentSize : UInt32) : Prop where
  /-- No product or rounded sum of the sizes leaves 64 bits. -/
  no_wrap : scratchBytes node privateSegmentSize + 4096 < 2 ^ 64 ∧
    privateSegmentSize.toNat * 64 + 256 < 2 ^ 64 ∧
    unitsPerWave privateSegmentSize * 256 < 2 ^ 64 ∧
    node.computeUnitCount.toNat * node.maximumScratchWavesPerComputeUnit.toNat < 2 ^ 64
  allocation : requirements.allocationSize.toNat =
    (scratchBytes node privateSegmentSize + 4095) / 4096 * 4096
  waveSize : requirements.waveSizeUnits.toNat = unitsPerWave privateSegmentSize
  waves : requirements.wavesPerShaderEngine.toNat =
    wavesPerEngine node privateSegmentSize requirements.allocationSize.toNat

/-- Requirements that suffice and that the registers can hold. -/
structure QueueScratchRequirements.Suffices (requirements : QueueScratchRequirements) (node : Node)
    (privateSegmentSize : UInt32) : Prop where
  /-- The memory of a wave covers the private segments of its lanes. -/
  lanes : privateSegmentSize.toNat * 64 ≤ requirements.waveSizeUnits.toNat * 256
  /-- The waves of all shader engines fit in the allocation. -/
  engines : requirements.wavesPerShaderEngine.toNat * (requirements.waveSizeUnits.toNat * 256) *
    node.shaderEngineCount.toNat ≤ requirements.allocationSize.toNat
  /-- The wave size has fifteen bits, the number of waves twelve, and the records 32. -/
  waveSizeField : requirements.waveSizeUnits.toNat < 2 ^ 15
  wavesField : requirements.wavesPerShaderEngine.toNat < 2 ^ 12
  recordsField : requirements.backingSizePerXcc.toNat < 2 ^ 32
  backing : requirements.backingSizePerXcc = requirements.allocationSize

/-- A control block that describes backing memory at an address to the hardware. -/
structure QueueScratchControl.Describes (control : QueueScratchControl) (address : UInt64)
    (requirements : QueueScratchRequirements) : Prop where
  /-- The descriptor holds the address in 48 bits, beside the bit for swizzling. -/
  addressLow : (control.resourceDescriptor 0).toNat = address.toNat % 2 ^ 32
  addressHigh : (control.resourceDescriptor 1).toNat = 2 ^ 30 + address.toNat / 2 ^ 32
  addressField : address.toNat < 2 ^ 48
  /-- The descriptor holds the size. -/
  records : (control.resourceDescriptor 2).toNat = requirements.allocationSize.toNat
  /-- The range stays within 48 bits. -/
  range : address.toNat + requirements.allocationSize.toNat ≤ 2 ^ 48
  /-- The register of the ring holds both of its fields. -/
  tmpring : control.computeTmpringSize.toNat =
    requirements.waveSizeUnits.toNat * 2 ^ 12 + requirements.wavesPerShaderEngine.toNat

section Control

variable {node : Node} {privateSegmentSize : UInt32} {aperture : ScratchAperture}
  {requirements : QueueScratchRequirements}

/-- Accepted requirements are exact. -/
theorem exact_of_ok
    (h : queueScratchRequirementsIn node privateSegmentSize aperture = .ok requirements) :
    requirements.Exact node privateSegmentSize := by
  have hsize := privateSegmentSize.toNat_lt
  have hproduct : node.computeUnitCount.toNat * node.maximumScratchWavesPerComputeUnit.toNat <
      2 ^ 64 := lt_of_lt_of_eq (Nat.mul_lt_mul'' node.computeUnitCount.toNat_lt
    node.maximumScratchWavesPerComputeUnit.toNat_lt) (by norm_num)
  rcases queueScratchRequirementsIn_ok h with ⟨rfl, rfl⟩ | ⟨-, -, allocationSize, halloc, hsized⟩
  · have hbytes : scratchBytes node 0 = 0 := by simp [scratchBytes]
    have hunits : unitsPerWave 0 = 0 := by decide
    refine ⟨⟨?_, by decide, ?_, hproduct⟩, ?_, hunits.symm, ?_⟩
    · rw [hbytes]
      decide
    · rw [hunits]
      decide
    · rw [hbytes]
      rfl
    · simp [wavesPerEngine]
  · obtain ⟨hrecords, hunits, -, -, hallocation, -, hwaveSize, hwaves⟩ := sizeWaves_ok hsized
    refine ⟨⟨by omega, by omega, by omega, hproduct⟩, ?_, hwaveSize, ?_⟩
    · rw [hallocation, halloc]
    · rw [hwaves, hallocation]

/-- Accepted requirements suffice and fit in the registers. -/
theorem suffices_of_ok
    (h : queueScratchRequirementsIn node privateSegmentSize aperture = .ok requirements) :
    requirements.Suffices node privateSegmentSize := by
  have hexact := exact_of_ok h
  have hengines : requirements.wavesPerShaderEngine.toNat *
      (requirements.waveSizeUnits.toNat * 256) * node.shaderEngineCount.toNat ≤
      requirements.allocationSize.toNat := by
    rw [hexact.waves, hexact.waveSize]
    exact waves_fit node privateSegmentSize _
  have hlanes : privateSegmentSize.toNat * 64 ≤ requirements.waveSizeUnits.toNat * 256 := by
    rw [hexact.waveSize]
    exact lanes_fit privateSegmentSize
  rcases queueScratchRequirementsIn_ok h with ⟨rfl, rfl⟩ | ⟨-, -, allocationSize, -, hsized⟩
  · exact ⟨hlanes, hengines, by decide, by decide, by decide, rfl⟩
  · obtain ⟨hrecords, hunits, -, hwavesLt, hallocation, hbacking, hwaveSize, hwaves⟩ :=
      sizeWaves_ok hsized
    refine ⟨hlanes, hengines, by omega, by omega, ?_, ?_⟩
    · rw [hbacking]
      exact hrecords
    · rw [hbacking, hallocation]

/-- The high word of the descriptor. -/
theorem toNat_descriptor_high {address : UInt64} (h : address.toNat < 2 ^ 48) :
    (((address >>> 32) &&& 0xffff).toUInt32 ||| ((1 : UInt32) <<< 30)).toNat =
      2 ^ 30 + address.toNat / 2 ^ 32 := by
  have hshift : (address >>> 32).toNat = address.toNat / 2 ^ 32 := by
    rw [UInt64.toNat_shiftRight, Nat.shiftRight_eq_div_pow]
    rfl
  have hmask : ((address >>> 32) &&& 0xffff).toNat = address.toNat / 2 ^ 32 := by
    have hones : (0xffff : UInt64).toNat = 2 ^ 16 - 1 := rfl
    rw [UInt64.toNat_and, hshift, hones, Nat.and_two_pow_sub_one_eq_mod]
    exact Nat.mod_eq_of_lt (by omega)
  have hbit : ((1 : UInt32) <<< 30).toNat = 2 ^ 30 := rfl
  have hsum := Nat.two_pow_add_eq_or_of_lt (show address.toNat / 2 ^ 32 < 2 ^ 30 by omega) 1
  rw [UInt32.toNat_or, UInt64.toNat_toUInt32, hmask, hbit, Nat.mod_eq_of_lt (by omega), Nat.or_comm]
  simpa using hsum.symm

/-- The register of the ring. -/
theorem toNat_tmpring {waveSizeUnits waves : UInt32} (hunits : waveSizeUnits.toNat < 2 ^ 15)
    (hwaves : waves.toNat < 2 ^ 12) :
    ((waveSizeUnits <<< 12) ||| waves).toNat = waveSizeUnits.toNat * 2 ^ 12 + waves.toNat := by
  have hshift : (waveSizeUnits <<< 12).toNat = waveSizeUnits.toNat <<< 12 := by
    rw [UInt32.toNat_shiftLeft]
    refine Nat.mod_eq_of_lt ?_
    change waveSizeUnits.toNat <<< 12 < 2 ^ 32
    rw [Nat.shiftLeft_eq]
    omega
  rw [UInt32.toNat_or, hshift, ← Nat.shiftLeft_add_eq_or_of_lt hwaves, Nat.shiftLeft_eq]

/-- Only a queue without private segments needs no memory. -/
theorem eq_empty_of_allocationSize_eq_zero
    (h : queueScratchRequirementsIn node privateSegmentSize aperture = .ok requirements)
    (hzero : requirements.allocationSize = 0) :
    requirements = { privateSegmentSize := privateSegmentSize } := by
  rcases queueScratchRequirementsIn_ok h with ⟨-, hempty⟩ | ⟨-, -, allocationSize, -, hsized⟩
  · exact hempty
  · obtain ⟨-, -, hpos, -, hallocation, -⟩ := sizeWaves_ok hsized
    rw [← hallocation, hzero] at hpos
    simp [wavesPerEngine] at hpos

/-- An accepted control block describes the given memory. -/
theorem describes_of_ok {address : UInt64} {control : QueueScratchControl}
    (h : makeQueueScratchControlIn node privateSegmentSize address aperture =
      .ok (requirements, control)) :
    queueScratchRequirementsIn node privateSegmentSize aperture = .ok requirements ∧
      control.Describes address requirements := by
  unfold makeQueueScratchControlIn at h
  split at h
  · cases h
  · rename_i accepted haccepted
    unfold failure at h
    split_ifs at h with hempty haddress hinvalid
    · obtain ⟨rfl, rfl⟩ := Prod.mk.inj (Except.ok.inj h)
      obtain rfl : address = 0 := not_not.mp haddress
      obtain rfl := eq_empty_of_allocationSize_eq_zero haccepted hempty
      exact ⟨haccepted, rfl, rfl, by decide, rfl, by simp, by simp⟩
    · obtain ⟨rfl, rfl⟩ := Prod.mk.inj (Except.ok.inj h)
      have hsuffices := suffices_of_ok haccepted
      simp only [not_or, UInt64.lt_iff_toNat_lt, not_lt] at hinvalid
      obtain ⟨-, -, hfield, hrange⟩ := hinvalid
      have hmax : maximumDescriptorAddress.toNat = 2 ^ 48 - 1 := rfl
      have hone : (1 : UInt64).toNat = 1 := rfl
      have hpos : 1 ≤ accepted.allocationSize.toNat :=
        Nat.pos_of_ne_zero fun hzero => hempty (UInt64.toNat_inj.mp hzero)
      rw [UInt64.toNat_sub_of_le _ _ (by rwa [UInt64.le_iff_toNat_le]),
        UInt64.toNat_sub_of_le _ _ (by rwa [UInt64.le_iff_toNat_le]), hone] at hrange
      have haddress : address.toNat < 2 ^ 48 := by omega
      refine ⟨haccepted, UInt64.toNat_toUInt32 _, toNat_descriptor_high haddress, haddress, ?_,
        by omega, toNat_tmpring hsuffices.waveSizeField hsuffices.wavesField⟩
      change accepted.backingSizePerXcc.toUInt32.toNat = accepted.allocationSize.toNat
      rw [UInt64.toNat_toUInt32, Nat.mod_eq_of_lt hsuffices.recordsField, hsuffices.backing]

/-- Whatever the scratch computation accepts is computed without wrapping around, covers the
private segments of all lanes within the allocation and fits in the register fields; and every
control block built from it describes exactly the given address and size. -/
theorem accepted_scratch_exact (node : Node) (privateSegmentSize : UInt32)
    (aperture : ScratchAperture) (requirements : QueueScratchRequirements)
    (h : queueScratchRequirementsIn node privateSegmentSize aperture = .ok requirements) :
    requirements.Exact node privateSegmentSize ∧
    requirements.Suffices node privateSegmentSize ∧
    ∀ (address : UInt64) (accepted : QueueScratchRequirements) (control : QueueScratchControl),
      makeQueueScratchControlIn node privateSegmentSize address aperture =
        .ok (accepted, control) →
      accepted = requirements ∧ control.Describes address requirements := by
  refine ⟨exact_of_ok h, suffices_of_ok h, fun address accepted control hcontrol => ?_⟩
  obtain ⟨haccepted, hdescribes⟩ := describes_of_ok hcontrol
  obtain rfl : accepted = requirements := Except.ok.inj (haccepted.symm.trans h)
  exact ⟨rfl, hdescribes⟩

/-- A card with 60 compute units in six shader engines. -/
def sixtyUnits : Node where
  simdCount := 120
  simdPerComputeUnit := 2
  wavefrontSize := 32
  maximumWavesPerSimd := 16
  shaderEngineCount := 6
  maximumScratchWavesPerComputeUnit := 32
  xccCount := 1
  architecture := ⟨11, 0, 1⟩
  memoryBanks := []

/-- On this card a private segment of a kibibyte takes 1920 waves of 64 KiB. -/
theorem accepted_scratch_sixtyUnits :
    (⟨1024, 125829120, 125829120, 256, 320⟩ : QueueScratchRequirements).Exact sixtyUnits 1024 ∧
    (⟨1024, 125829120, 125829120, 256, 320⟩ : QueueScratchRequirements).Suffices sixtyUnits 1024 ∧
    QueueScratchControl.Describes
      ⟨![0x10000, 0x40000000, 125829120, 0x20814fac], 0x100140, 0x10000, 125829120, 1024⟩ 0x10000
      ⟨1024, 125829120, 125829120, 256, 320⟩ := by
  obtain ⟨hexact, hsuffices, hcontrol⟩ := accepted_scratch_exact sixtyUnits 1024
    ⟨0x1000000000000, 0x100000000⟩ ⟨1024, 125829120, 125829120, 256, 320⟩ rfl
  exact ⟨hexact, hsuffices, (hcontrol 0x10000 _ _ rfl).2⟩

end Control

end LightRocm.Gfx11
