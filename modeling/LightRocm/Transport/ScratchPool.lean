import LightRocm.Transport.Memory

/-!
# The scratch pool of the KFD transport

One address range for the scratch memory of all queues of a device, from
`transport/kfd/memory.cpp`: how the pool is placed in its reservation, and how the
reservation is given up again.
-/

namespace LightRocm.Transport

open Alignment (alignUp)

/-- `kGfx11ScratchPoolSize`. -/
def gfx11ScratchPoolSize : UInt64 := 4 * 1024 * 1024 * 1024

/-- `ScratchPoolState`, and the name its reservation is made under. A free range is
an offset in the pool and a size. -/
structure ScratchPoolState where
  name : Name
  reservationAddress : Option UInt64 := none
  reservationSize : UInt64 := 0
  gpuAddress : UInt64 := 0
  size : UInt64 := 0
  integrated : Bool := false
  configured : Bool := false
  freeRanges : List (ℕ × ℕ) := []

/-- `release_pool_reservation`. -/
def releasePoolReservation (pool : ScratchPoolState) :
    Calls (MemoryStatus × ScratchPoolState) := do
  match pool.reservationAddress with
  | none => return (none, pool)
  | some address =>
    let unmapped ← munmap .reservation pool.name address pool.reservationSize
    if unmapped = false then
      return (systemFailure .unmapHost "munmap(scratch pool reservation)", pool)
    else return (none, { pool with
      reservationAddress := none, reservationSize := 0, gpuAddress := 0, size := 0,
      configured := false, freeRanges := [] })

/-- The failure of an initialisation, after the reservation has been given up. -/
def rollbackPool (failure : MemoryFailure) (pool : ScratchPoolState) :
    Calls (MemoryStatus × ScratchPoolState) := do
  let (cleanup, pool) ← releasePoolReservation pool
  return (some (withCleanup failure cleanup), pool)

/-- The size of the reservation of a pool. -/
def poolReservationSize : UInt64 :=
  gfx11ScratchPoolSize + scratchBackingAlignment + guardPageCount * memoryPageSize

/-- The reservation leaves the address range. -/
def poolOverflows (reservation : UInt64) : Bool :=
  decide (maximumWord - poolReservationSize < reservation)

/-- The address of the pool within its reservation. -/
def poolAddress (reservation : UInt64) : UInt64 :=
  alignUp (reservation + memoryPageSize) scratchBackingAlignment

/-- The pool leaves the aperture of the GPU or its reservation. -/
def poolOutside (aperture : ProcessAperture) (reservation : UInt64) : Bool :=
  let gpuAddress := poolAddress reservation
  let reservationEnd := reservation + poolReservationSize
  decide (gpuAddress < aperture.gpuvmBase) || decide (aperture.gpuvmLimit < gpuAddress) ||
    decide (aperture.gpuvmLimit - gpuAddress < gfx11ScratchPoolSize - 1) ||
    decide (reservationEnd < gpuAddress) ||
    decide (reservationEnd - gpuAddress < memoryPageSize) ||
    decide (reservationEnd - gpuAddress - memoryPageSize < gfx11ScratchPoolSize)

/-- The end of `initialize_scratch_pool`, once the pool has an address. -/
def configurePool (pool : ScratchPoolState) : Calls (MemoryStatus × ScratchPoolState) := do
  let advised ← succeeds
  if advised = false then
    rollbackPool ⟨.adviseDontFork, "madvise(scratch pool MADV_DONTFORK) failed"⟩ pool
  else
    let backed ← succeeds
    if backed = false then
      rollbackPool ⟨.setScratchBacking, "AMDKFD_IOC_SET_SCRATCH_BACKING_VA failed"⟩ pool
    else
      let stored ← succeeds
      if stored = false then
        rollbackPool ⟨.allocateState, "failed to allocate scratch pool range state"⟩ pool
      else return (none, { pool with freeRanges := [(0, pool.size.toNat)], configured := true })

/-- An integrated GPU has its pool in memory of the host. -/
def mapIntegrated (integrated : Bool) (name : Name) (address size : UInt64) : Calls Bool :=
  if integrated then mmapFixed name address size else pure true

/-- `initialize_scratch_pool`; the checks of the constant sizes never fail. -/
def initializeScratchPool (name : Name) (aperture : ProcessAperture) (integrated : Bool) :
    Calls (MemoryStatus × ScratchPoolState) := do
  match ← mmap name poolReservationSize with
  | none => return (systemFailure .reserveVa "mmap(scratch pool reservation)", { name := name })
  | some reservation =>
    let pool : ScratchPoolState :=
      { name := name
        reservationAddress := some reservation
        reservationSize := poolReservationSize
        integrated := integrated }
    if poolOverflows reservation then
      rollbackPool
        ⟨.reserveVa, "scratch pool reservation overflows the host address range"⟩ pool
    else if poolOutside aperture reservation then
      rollbackPool
        ⟨.reserveVa, "64 KiB-aligned scratch pool is outside the KFD GPUVM aperture"⟩ pool
    else
      let pool := { pool with gpuAddress := poolAddress reservation, size := gfx11ScratchPoolSize }
      let mapped ← mapIntegrated integrated name pool.gpuAddress pool.size
      if mapped = false then
        rollbackPool ⟨.mapHost, "mmap(integrated scratch pool) failed"⟩ pool
      else configurePool pool

end LightRocm.Transport
