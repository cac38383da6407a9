import LightRocm.Transport.MemoryRules
import LightRocm.Transport.ScratchPool

/-!
# Reservations of addresses

A buffer lies within the addresses reserved for it, at a multiple of its granule,
with a guard page on each side, and within the aperture of the GPU. This is so for
every size, usage and aperture that pass the checks, wherever the kernel places the
reservation, and no word wraps around on the way. The same holds of a scratch pool.
-/

namespace LightRocm.Transport

open Alignment (alignUp)
open Program

/-- The multiple at which the buffer of an allocation starts. -/
def granule (usage : MemoryAllocationUsage) : UInt64 :=
  if usesVramBacking usage then vramAllocationGranule else memoryPageSize

/-- `size` bytes at `address` are aligned, within a reservation that has a guard page on each
side of them, and within the aperture. -/
structure Enclosed (aperture : ProcessAperture)
    (granule reservation reservationSize address size : UInt64) : Prop where
  aligned : granule.toNat ∣ address.toNat
  guard_before : reservation.toNat + memoryPageSize.toNat ≤ address.toNat
  guard_after : address.toNat + size.toNat + memoryPageSize.toNat ≤
    reservation.toNat + reservationSize.toNat
  addressable : reservation.toNat + reservationSize.toNat ≤ addressLimit
  base_le : aperture.gpuvmBase.toNat ≤ address.toNat
  le_limit : address.toNat + size.toNat - 1 ≤ aperture.gpuvmLimit.toNat

/-- The sizes and addresses of an allocation are those of natural numbers. -/
structure MemoryExact (usage : MemoryAllocationUsage) (size reservation : UInt64) : Prop where
  backing : (backingSize usage size).toNat =
    if usage = .aqlRing then size.toNat * 2 else size.toNat
  total : (reservationSize usage size).toNat = (backingSize usage size).toNat +
    guardPageCount.toNat * memoryPageSize.toNat + (alignmentSlack usage).toNat
  first : (reservation + memoryPageSize).toNat = reservation.toNat + memoryPageSize.toNat
  rounding : usesVramBacking usage = true →
    (reservation + memoryPageSize + vramAllocationGranule - 1).toNat =
      reservation.toNat + memoryPageSize.toNat + (vramAllocationGranule.toNat - 1)
  last : (bufferAddress usage reservation + backingSize usage size - 1).toNat =
    (bufferAddress usage reservation).toNat + (backingSize usage size).toNat - 1

/-- The sizes and addresses of a scratch pool are those of natural numbers. -/
structure PoolExact (aperture : ProcessAperture) (reservation : UInt64) : Prop where
  total : poolReservationSize.toNat = gfx11ScratchPoolSize.toNat +
    scratchBackingAlignment.toNat + guardPageCount.toNat * memoryPageSize.toNat
  first : (reservation + memoryPageSize).toNat = reservation.toNat + memoryPageSize.toNat
  rounding : (reservation + memoryPageSize + scratchBackingAlignment - 1).toNat =
    reservation.toNat + memoryPageSize.toNat + (scratchBackingAlignment.toNat - 1)
  reservationEnd : (reservation + poolReservationSize).toNat =
    reservation.toNat + poolReservationSize.toNat
  toLimit : (aperture.gpuvmLimit - poolAddress reservation).toNat =
    aperture.gpuvmLimit.toNat - (poolAddress reservation).toNat
  toEnd : (reservation + poolReservationSize - poolAddress reservation - memoryPageSize).toNat =
    reservation.toNat + poolReservationSize.toNat - (poolAddress reservation).toNat -
      memoryPageSize.toNat

section Words

variable {a b : UInt64}

/-- A sum that fits is the sum of the numbers. -/
theorem toNat_add_of_lt (h : a.toNat + b.toNat < 2 ^ 64) : (a + b).toNat = a.toNat + b.toNat := by
  rw [UInt64.toNat_add]
  exact Nat.mod_eq_of_lt h

/-- A difference of ordered words is the difference of the numbers. -/
theorem toNat_sub_of_toNat_le (h : b.toNat ≤ a.toNat) : (a - b).toNat = a.toNat - b.toNat :=
  UInt64.toNat_sub_of_le a b (UInt64.le_iff_toNat_le.mpr h)

@[simp]
theorem toNat_memoryPageSize : memoryPageSize.toNat = 4096 := rfl

@[simp]
theorem toNat_vramAllocationGranule : vramAllocationGranule.toNat = 2 ^ 21 := rfl

@[simp]
theorem toNat_guardPageCount : guardPageCount.toNat = 2 := rfl

@[simp]
theorem toNat_maximumWord : maximumWord.toNat = 2 ^ 64 - 1 := rfl

@[simp]
theorem toNat_scratchBackingAlignment : scratchBackingAlignment.toNat = 2 ^ 16 := rfl

@[simp]
theorem toNat_gfx11ScratchPoolSize : gfx11ScratchPoolSize.toNat = 2 ^ 32 := rfl

@[simp]
theorem toNat_poolReservationSize : poolReservationSize.toNat = 2 ^ 32 + 2 ^ 16 + 8192 := rfl

end Words

/-- What the kernel promises of a new mapping. -/
theorem mmap_eq_some {owner : Name} {size : UInt64} {kernel : Kernel} {address : UInt64}
    (h : (mmap owner size kernel).1 = some address) :
    0 < address.toNat ∧ 4096 ∣ address.toNat ∧ address.toNat + size.toNat ≤ addressLimit := by
  have hpost : (mmap owner size).Ensures kernel fun result _ => ∀ address, result = some address →
      0 < address.toNat ∧ 4096 ∣ address.toNat ∧ address.toNat + size.toNat ≤ addressLimit := by
    apply ensures_mmap
    · rintro address hplace _ ⟨⟩
      simp only [placeable, Bool.and_eq_true, decide_eq_true_eq] at hplace
      exact ⟨hplace.1.1.1, Nat.dvd_of_mod_eq_zero hplace.1.1.2, hplace.1.2⟩
    · rintro _ ⟨⟩
  exact hpost address h

section Memory

variable {aperture : ProcessAperture} {usage : MemoryAllocationUsage} {size reservation : UInt64}

/-- A size that passes the checks. -/
theorem checkSize_eq_none (h : checkSize usage size = none) :
    0 < size.toNat ∧ 4096 ∣ size.toNat ∧
      (if usage = .aqlRing then size.toNat * 2 else size.toNat) + 8192 +
        (alignmentSlack usage).toNat < 2 ^ 64 := by
  have hslack : (alignmentSlack usage).toNat ≤ 2 ^ 21 := by
    unfold alignmentSlack
    split <;> simp
  have hlimit : (maximumWord - guardPageCount * memoryPageSize - alignmentSlack usage).toNat =
      2 ^ 64 - 1 - 8192 - (alignmentSlack usage).toNat := by
    have hguards : (maximumWord - guardPageCount * memoryPageSize).toNat = 2 ^ 64 - 1 - 8192 := rfl
    rw [toNat_sub_of_toNat_le (by omega), hguards]
  simp only [checkSize] at h
  split at h
  · cases h
  rename_i hsize
  split at h
  · cases h
  rename_i hfits
  simp only [not_or, not_and, not_not, UInt64.lt_iff_toNat_lt, not_lt] at hsize hfits
  obtain ⟨hzero, hpage, hring⟩ := hsize
  have hpos : 0 < size.toNat := by
    rw [Nat.pos_iff_ne_zero]
    intro hcontra
    exact hzero (UInt64.toNat_inj.mp hcontra)
  have hdvd : 4096 ∣ size.toNat := by
    have := congrArg UInt64.toNat hpage
    rw [UInt64.toNat_mod] at this
    exact Nat.dvd_of_mod_eq_zero this
  refine ⟨hpos, hdvd, ?_⟩
  rw [hlimit, backingSize] at hfits
  split
  · rename_i husage
    have hhalf : size.toNat ≤ 2 ^ 63 - 1 := hring husage
    rw [if_pos husage, UInt64.toNat_mul] at hfits
    have htwo : (2 : UInt64).toNat = 2 := rfl
    rw [htwo, Nat.mod_eq_of_lt (by omega)] at hfits
    omega
  · rename_i husage
    rw [if_neg husage] at hfits
    omega

/-- The sizes are computed without wrapping around. -/
theorem toNat_sizes (h : checkSize usage size = none) :
    (backingSize usage size).toNat = (if usage = .aqlRing then size.toNat * 2 else size.toNat) ∧
      (reservationSize usage size).toNat =
        (backingSize usage size).toNat + 8192 + (alignmentSlack usage).toNat := by
  obtain ⟨-, -, hfits⟩ := checkSize_eq_none h
  have hbacking : (backingSize usage size).toNat =
      if usage = .aqlRing then size.toNat * 2 else size.toNat := by
    unfold backingSize
    split
    · rename_i husage
      rw [if_pos husage] at hfits
      have htwo : (2 : UInt64).toNat = 2 := rfl
      rw [UInt64.toNat_mul, htwo]
      exact Nat.mod_eq_of_lt (by omega)
    · rfl
  refine ⟨hbacking, ?_⟩
  rw [← hbacking] at hfits
  have hguards : (guardPageCount * memoryPageSize).toNat = 8192 := rfl
  have hsum : (backingSize usage size + guardPageCount * memoryPageSize).toNat =
      (backingSize usage size).toNat + 8192 := by
    rw [toNat_add_of_lt (by omega), hguards]
  rw [reservationSize, toNat_add_of_lt (by omega), hsum]

/-- An address that passes the check leaves room for the guard page and for rounding. -/
theorem addressOverflows_eq_false (h : addressOverflows usage reservation = false) :
    reservation.toNat + 4096 + (if usesVramBacking usage then 2 ^ 21 - 1 else 0) < 2 ^ 64 := by
  simp only [addressOverflows, decide_eq_false_iff_not, UInt64.lt_iff_toNat_lt, not_lt] at h
  split at h
  · rename_i hvram
    rw [if_pos hvram]
    have hlimit : (maximumWord - memoryPageSize - (vramAllocationGranule - 1)).toNat =
      2 ^ 64 - 1 - 4096 - (2 ^ 21 - 1) := rfl
    omega
  · rename_i hvram
    rw [if_neg hvram]
    have hlimit : (maximumWord - memoryPageSize - 0).toNat = 2 ^ 64 - 1 - 4096 := rfl
    omega

/-- Where the buffer of an allocation starts. -/
theorem bufferAddress_bounds (h : addressOverflows usage reservation = false)
    (hpage : 4096 ∣ reservation.toNat) :
    (granule usage).toNat ∣ (bufferAddress usage reservation).toNat ∧
      reservation.toNat + 4096 ≤ (bufferAddress usage reservation).toNat ∧
      (bufferAddress usage reservation).toNat ≤
        reservation.toNat + 4096 + (alignmentSlack usage).toNat := by
  have hfits := addressOverflows_eq_false h
  have hfirst : (reservation + memoryPageSize).toNat = reservation.toNat + 4096 := by
    rw [toNat_add_of_lt (by rw [toNat_memoryPageSize]; omega), toNat_memoryPageSize]
  unfold granule bufferAddress alignmentSlack
  split
  · rename_i hvram
    rw [if_pos hvram] at hfits
    have hround : (reservation + memoryPageSize).toNat + (2 ^ 21 - 1) < 2 ^ 64 := by omega
    obtain ⟨hdvd, hle, hlt⟩ :=
      Alignment.alignUp_bounds (by decide) toNat_vramAllocationGranule hround
    rw [hfirst] at hle hlt
    exact ⟨hdvd, hle, by rw [toNat_vramAllocationGranule]; omega⟩
  · rw [hfirst]
    exact ⟨dvd_add hpage (dvd_refl 4096), le_rfl, Nat.le_add_right _ _⟩

/-- A buffer that passes the last check lies in the aperture, and its last address does not
wrap around. -/
theorem outsideAperture_eq_false {address backing : UInt64} (hpos : 0 < backing.toNat)
    (h : outsideAperture aperture address backing = false) :
    aperture.gpuvmBase.toNat ≤ address.toNat ∧
      (address + backing - 1).toNat = address.toNat + backing.toNat - 1 ∧
      address.toNat + backing.toNat - 1 ≤ aperture.gpuvmLimit.toNat := by
  have hone : (1 : UInt64).toNat = 1 := rfl
  simp only [outsideAperture, Bool.or_eq_false_iff, decide_eq_false_iff_not,
    UInt64.lt_iff_toNat_lt, not_lt] at h
  obtain ⟨⟨hfits, hbase⟩, hlimit⟩ := h
  have hlt := backing.toNat_lt
  rw [toNat_sub_of_toNat_le (by rw [toNat_sub_of_toNat_le (by omega), toNat_maximumWord]; omega),
    toNat_sub_of_toNat_le (by omega), toNat_maximumWord, hone] at hfits
  have hlast : (address + backing - 1).toNat = address.toNat + backing.toNat - 1 := by
    rw [Alignment.toNat_add_sub_one hpos (by omega)]
    omega
  rw [hlast] at hlimit
  exact ⟨hbase, hlast, hlimit⟩

/-- A buffer that passes the checks is enclosed. -/
theorem enclosed_buffer (hsize : checkSize usage size = none) (hpage : 4096 ∣ reservation.toNat)
    (haddressable : reservation.toNat + (reservationSize usage size).toNat ≤ addressLimit)
    (hfits : addressOverflows usage reservation = false)
    (hinside : outsideAperture aperture (bufferAddress usage reservation)
      (backingSize usage size) = false) :
    Enclosed aperture (granule usage) reservation (reservationSize usage size)
        (bufferAddress usage reservation) (backingSize usage size) ∧
      MemoryExact usage size reservation := by
  obtain ⟨hpos, -, -⟩ := checkSize_eq_none hsize
  obtain ⟨hbacking, htotal⟩ := toNat_sizes hsize
  have hbackingPos : 0 < (backingSize usage size).toNat := by
    rw [hbacking]
    split <;> omega
  obtain ⟨hdvd, hbefore, hafter⟩ := bufferAddress_bounds hfits hpage
  obtain ⟨hbase, hlast, hlimit⟩ := outsideAperture_eq_false hbackingPos hinside
  have hroom := addressOverflows_eq_false hfits
  have hfirst : (reservation + memoryPageSize).toNat = reservation.toNat + 4096 := by
    rw [toNat_add_of_lt (by rw [toNat_memoryPageSize]; omega), toNat_memoryPageSize]
  refine ⟨⟨hdvd, hbefore, ?_, haddressable, hbase, hlimit⟩,
    ⟨hbacking, htotal, hfirst, ?_, hlast⟩⟩
  · rw [htotal, toNat_memoryPageSize]
    omega
  · intro hvram
    rw [if_pos hvram] at hroom
    rw [Alignment.toNat_add_sub_one (by simp) (by rw [hfirst, toNat_vramAllocationGranule]; omega),
      hfirst, toNat_memoryPageSize]

/-- A scratch pool that passes the checks is enclosed. -/
theorem enclosed_pool (hfits : poolOverflows reservation = false)
    (hinside : poolOutside aperture reservation = false) :
    Enclosed aperture scratchBackingAlignment reservation poolReservationSize
        (poolAddress reservation) gfx11ScratchPoolSize ∧
      PoolExact aperture reservation := by
  simp only [poolOverflows, decide_eq_false_iff_not, UInt64.lt_iff_toNat_lt, not_lt] at hfits
  rw [toNat_sub_of_toNat_le (by simp), toNat_maximumWord, toNat_poolReservationSize] at hfits
  have hfirst : (reservation + memoryPageSize).toNat = reservation.toNat + 4096 := by
    rw [toNat_add_of_lt (by rw [toNat_memoryPageSize]; omega), toNat_memoryPageSize]
  have hend : (reservation + poolReservationSize).toNat =
      reservation.toNat + (2 ^ 32 + 2 ^ 16 + 8192) := by
    rw [toNat_add_of_lt (by rw [toNat_poolReservationSize]; omega), toNat_poolReservationSize]
  have hround : (reservation + memoryPageSize).toNat + (2 ^ 16 - 1) < 2 ^ 64 := by omega
  obtain ⟨hdvd, hbefore, hafter⟩ :=
    Alignment.alignUp_bounds (by decide) toNat_scratchBackingAlignment hround
  rw [hfirst] at hbefore hafter
  change _ ≤ (poolAddress reservation).toNat at hbefore
  change (poolAddress reservation).toNat < _ at hafter
  simp only [poolOutside, Bool.or_eq_false_iff, decide_eq_false_iff_not,
    UInt64.lt_iff_toNat_lt, not_lt] at hinside
  obtain ⟨⟨⟨⟨⟨hbase, hlimit⟩, hpool⟩, hle⟩, hpagesize⟩, -⟩ := hinside
  have htoLimit := toNat_sub_of_toNat_le hlimit
  have htoEnd := toNat_sub_of_toNat_le hle
  have hminus : (gfx11ScratchPoolSize - 1).toNat = 2 ^ 32 - 1 := rfl
  rw [htoLimit, hminus] at hpool
  refine ⟨⟨hdvd, hbefore, ?_, ?_, hbase, ?_⟩, ⟨rfl, hfirst, ?_, ?_, htoLimit, ?_⟩⟩
  · rw [toNat_gfx11ScratchPoolSize, toNat_memoryPageSize, toNat_poolReservationSize]
    omega
  · rw [toNat_poolReservationSize, addressLimit]
    omega
  · rw [toNat_gfx11ScratchPoolSize]
    omega
  · rw [Alignment.toNat_add_sub_one (by simp) (by rw [hfirst, toNat_scratchBackingAlignment]; omega),
      hfirst, toNat_memoryPageSize]
  · rw [hend, toNat_poolReservationSize]
  · rw [toNat_sub_of_toNat_le hpagesize, htoEnd, hend, toNat_poolReservationSize]

end Memory

section Allocations

variable {kernel : Kernel} {owner : Name} {usage : MemoryAllocationUsage}

/-- Both allocations have the same addresses. -/
def RawMemoryAllocation.SamePlace (a b : RawMemoryAllocation) : Prop :=
  a.reservationAddress = b.reservationAddress ∧ a.reservationSize = b.reservationSize ∧
    a.gpuAddress = b.gpuAddress ∧ a.size = b.size

/-- An allocation that is rolled back fails, so nothing has to hold of a success. -/
theorem rollbackMemory_fails {P : MemoryStatus × RawMemoryAllocation → Kernel → Prop}
    (failure : MemoryFailure) (allocation : RawMemoryAllocation) :
    (rollbackMemory owner failure allocation).Ensures kernel fun result after =>
      result.1 = none → P result after := by
  apply Ensures.seq
  apply Ensures.of_forall
  rintro ⟨cleanup, after⟩ kernel'
  apply Ensures.pure
  rintro ⟨⟩

/-- So does a pool that is rolled back. -/
theorem rollbackPool_fails {P : MemoryStatus × ScratchPoolState → Kernel → Prop}
    (failure : MemoryFailure) (pool : ScratchPoolState) :
    (rollbackPool failure pool).Ensures kernel fun result after =>
      result.1 = none → P result after := by
  apply Ensures.seq
  apply Ensures.of_forall
  rintro ⟨cleanup, after⟩ kernel'
  apply Ensures.pure
  rintro ⟨⟩

/-- The host sees a buffer where the device does, if it sees it. -/
def RawMemoryAllocation.Hosted (allocation : RawMemoryAllocation) : Prop :=
  ∀ address, allocation.hostAddress = some address → address = allocation.gpuAddress

/-- A successful allocation keeps the addresses it has chosen. -/
theorem samePlace_finishAllocation (allocation : RawMemoryAllocation) (hhosted : allocation.Hosted) :
    (finishAllocation owner usage allocation).Ensures kernel fun result _ =>
      result.1 = none → result.2.SamePlace allocation ∧ result.2.Hosted := by
  apply Ensures.seq
  apply ensures_succeeds
  intro ok _
  apply Ensures.ite
  · intro _
    exact rollbackMemory_fails _ _
  intro _
  apply Ensures.ite
  · intro _ _
    exact ⟨⟨rfl, rfl, rfl, rfl⟩, hhosted⟩
  intro _
  apply Ensures.seq
  apply ensures_mapMemory
  · intro failure
    exact rollbackMemory_fails _ _
  · intro _ _
    exact ⟨⟨rfl, rfl, rfl, rfl⟩, hhosted⟩
  · intro _ _ _ _ reached status _ _ _
    cases status with
    | none => exact fun _ => ⟨⟨rfl, rfl, rfl, rfl⟩, hhosted⟩
    | some failure => exact rollbackMemory_fails _ _

/-- The buffer of a successful allocation is at the chosen addresses. -/
theorem samePlace_bufferInReservation (allocation : RawMemoryAllocation)
    (hhosted : allocation.Hosted) :
    (bufferInReservation owner usage allocation).Ensures kernel fun result _ =>
      result.1 = none → result.2.SamePlace allocation ∧ result.2.Hosted := by
  have hown : ∀ (address : UInt64), some allocation.gpuAddress = some address →
      address = allocation.gpuAddress := fun address heq => (Option.some.inj heq).symm
  apply Ensures.seq
  apply ensures_allocMemoryOfGpu
  · intro offset
    generalize kernel.nextHandle = handle
    cases handle with
    | zero => exact rollbackMemory_fails _ _
    | succ handle =>
      apply Ensures.ite
      · intro _
        exact samePlace_finishAllocation _ hown
      intro _
      apply Ensures.ite
      · intro _
        exact samePlace_finishAllocation _ hhosted
      intro _
      apply Ensures.ite
      · intro _
        exact rollbackMemory_fails _ _
      intro _
      apply Ensures.seq
      apply ensures_mmapFixed
      · exact samePlace_finishAllocation _ hown
      · exact rollbackMemory_fails _ _
  · intro offset
    exact rollbackMemory_fails _ _
  · exact rollbackMemory_fails _ _

/-- A successful allocation has passed the checks with the addresses it records. -/
theorem enclosed_allocateMemory (aperture : ProcessAperture) (size : UInt64) :
    (allocateMemory owner aperture size usage).Ensures kernel fun result _ =>
      result.1 = none → (result.2.size = size ∧
        ∃ reservation, result.2.reservationAddress = some reservation ∧
          Enclosed aperture (granule usage) reservation result.2.reservationSize
            result.2.gpuAddress (backingSize usage size) ∧
          MemoryExact usage size reservation) ∧ result.2.Hosted := by
  apply Ensures.ite
  · rintro _ ⟨⟩
  intro _
  apply Ensures.ite
  · intro hcheck heq
    exact absurd heq hcheck
  intro hcheck
  apply Ensures.seq
  apply ensures_succeeds
  intro stated _
  apply Ensures.ite
  · rintro _ ⟨⟩
  intro _
  apply Ensures.seq
  apply ensures_mmap
  · intro reservation hplace
    simp only [placeable, Bool.and_eq_true, decide_eq_true_eq] at hplace
    apply Ensures.ite
    · intro _
      exact rollbackMemory_fails _ _
    intro hfits
    apply Ensures.ite
    · intro _
      exact rollbackMemory_fails _ _
    intro hinside
    apply (samePlace_bufferInReservation _ (by rintro address ⟨⟩)).mono
    intro result _ hsame hok
    obtain ⟨⟨hreservation, htotal, haddress, hsize⟩, hhosted⟩ := hsame hok
    have henclosed := enclosed_buffer (not_not.mp hcheck)
      (Nat.dvd_of_mod_eq_zero hplace.1.1.2) hplace.1.2 (Bool.eq_false_iff.mpr hfits)
      (Bool.eq_false_iff.mpr hinside)
    refine ⟨?_, hhosted⟩
    rw [htotal, haddress]
    exact ⟨hsize, reservation, hreservation, henclosed⟩
  · rintro ⟨⟩

/-- The state of a pool that has been set up. -/
theorem configurePool_place (pool : ScratchPoolState) :
    (configurePool pool).Ensures kernel fun result _ => result.1 = none →
      result.2.reservationAddress = pool.reservationAddress ∧
        result.2.reservationSize = pool.reservationSize ∧
        result.2.gpuAddress = pool.gpuAddress ∧ result.2.size = pool.size := by
  apply Ensures.seq
  apply ensures_succeeds
  intro advised _
  apply Ensures.ite
  · intro _
    exact rollbackPool_fails _ _
  intro _
  apply Ensures.seq
  apply ensures_succeeds
  intro backed _
  apply Ensures.ite
  · intro _
    exact rollbackPool_fails _ _
  intro _
  apply Ensures.seq
  apply ensures_succeeds
  intro stored _
  apply Ensures.ite
  · intro _
    exact rollbackPool_fails _ _
  intro _ _
  exact ⟨rfl, rfl, rfl, rfl⟩

/-- A pool that has been set up has passed the checks with the addresses it records. -/
theorem enclosed_initializeScratchPool (name : Name) (aperture : ProcessAperture)
    (integrated : Bool) :
    (initializeScratchPool name aperture integrated).Ensures kernel fun result _ =>
      result.1 = none → result.2.size = gfx11ScratchPoolSize ∧
        ∃ reservation, result.2.reservationAddress = some reservation ∧
          Enclosed aperture scratchBackingAlignment reservation result.2.reservationSize
            result.2.gpuAddress gfx11ScratchPoolSize ∧
          PoolExact aperture reservation := by
  apply Ensures.seq
  apply ensures_mmap
  · intro reservation _
    apply Ensures.ite
    · intro _
      exact rollbackPool_fails _ _
    intro hfits
    apply Ensures.ite
    · intro _
      exact rollbackPool_fails _ _
    intro hinside
    have henclosed := enclosed_pool (Bool.eq_false_iff.mpr hfits) (Bool.eq_false_iff.mpr hinside)
    apply Ensures.seq
    apply Ensures.of_forall
    intro mapped after
    apply Ensures.ite
    · intro _
      exact rollbackPool_fails _ _
    intro _
    apply (configurePool_place _).mono
    intro result _ hplace hok
    obtain ⟨hreservation, htotal, haddress, hsize⟩ := hplace hok
    rw [htotal, haddress]
    exact ⟨hsize, reservation, hreservation, henclosed⟩
  · rintro ⟨⟩

end Allocations

/-- Every buffer and every scratch pool that pass the checks are enclosed in the addresses
that the kernel has reserved for them, and no word wraps around; an allocation that succeeds
and a pool that is set up have passed the checks. -/
theorem reservations_enclosed :
    (∀ owner kernel aperture usage size reservation, checkSize usage size = none →
      (mmap owner (reservationSize usage size) kernel).1 = some reservation →
      addressOverflows usage reservation = false →
      outsideAperture aperture (bufferAddress usage reservation)
        (backingSize usage size) = false →
      Enclosed aperture (granule usage) reservation (reservationSize usage size)
          (bufferAddress usage reservation) (backingSize usage size) ∧
        MemoryExact usage size reservation) ∧
    (∀ name kernel aperture reservation,
      (mmap name poolReservationSize kernel).1 = some reservation →
      poolOverflows reservation = false → poolOutside aperture reservation = false →
      Enclosed aperture scratchBackingAlignment reservation poolReservationSize
          (poolAddress reservation) gfx11ScratchPoolSize ∧
        PoolExact aperture reservation) ∧
    (∀ owner kernel aperture usage size,
      (allocateMemory owner aperture size usage).Ensures kernel fun result _ =>
        result.1 = none → result.2.size = size ∧
          ∃ reservation, result.2.reservationAddress = some reservation ∧
            Enclosed aperture (granule usage) reservation result.2.reservationSize
              result.2.gpuAddress (backingSize usage size) ∧
            MemoryExact usage size reservation) ∧
    (∀ name kernel aperture integrated,
      (initializeScratchPool name aperture integrated).Ensures kernel fun result _ =>
        result.1 = none → result.2.size = gfx11ScratchPoolSize ∧
          ∃ reservation, result.2.reservationAddress = some reservation ∧
            Enclosed aperture scratchBackingAlignment reservation result.2.reservationSize
              result.2.gpuAddress gfx11ScratchPoolSize ∧
            PoolExact aperture reservation) := by
  refine ⟨?_, ?_, ?_, ?_⟩
  · intro owner kernel aperture usage size reservation hsize hmap hfits hinside
    obtain ⟨-, hpage, haddressable⟩ := mmap_eq_some hmap
    exact enclosed_buffer hsize hpage haddressable hfits hinside
  · intro name kernel aperture reservation _ hfits hinside
    exact enclosed_pool hfits hinside
  · intro owner kernel aperture usage size
    exact (enclosed_allocateMemory aperture size).mono fun result _ h hok => (h hok).1
  · intro name kernel aperture integrated
    exact enclosed_initializeScratchPool name aperture integrated

/-- A device with all addresses from the first page up to `2 ^ 47`. -/
def wideAperture : ProcessAperture := ⟨1, 4096, 0x7fffffffffff⟩

/-- A fresh kernel with a script of answers. -/
def Kernel.fresh (answers : List Answer) : Kernel :=
  { space := [], buffers := [], queues := [], events := [], nextHandle := 1, nextQueue := 0,
    nextEvent := 0, record := [], answers := answers }

/-- One page of video memory at the first multiple of two megabytes after the reservation. -/
theorem reservations_enclosed_vram :
    (allocateMemory ⟨0, .memory⟩ wideAperture 4096 .vram
        (Kernel.fresh [{}, { address := 0x100000 }])).1.1 = none ∧
      Enclosed wideAperture (granule .vram) 0x100000 (reservationSize .vram 4096) 0x200000 4096 :=
  ⟨by decide, (reservations_enclosed.1 ⟨0, .memory⟩ (Kernel.fresh [{ address := 0x100000 }])
    wideAperture .vram 4096 0x100000 (by decide) (by decide) (by decide) (by decide)).1⟩

end LightRocm.Transport
