import LightRocm.Lib.Run
import LightRocm.Lib.Tiling
import LightRocm.Status

/-!
# Scratch leases of the hsakmt transport

`acquire_scratch_lease` and `ScratchLease::release`, from `transport/hsakmt/memory.cpp`. A GPU has
one reservation of scratch memory in the process, of which the queues of a session lease ranges.
A session keeps weak references to its pools; the last reference to a pool frees its reservation.
Sections that run under the lock of a pool are single steps of a thread; what a call returns is
kept without its text.
-/

namespace LightRocm.Hsakmt

open Tiling

/-- `MemoryError`, as far as it is used here. -/
inductive MemoryError where
  | none | invalidSize | allocateScratch | scratchAlreadyReserved | mapToGpu | unmapFromGpu
  | freeMemory
  deriving DecidableEq

/-- `add_overflows`. -/
def addOverflows (left right : ℕ) : Bool := decide (2 ^ 64 - 1 - right < left)

/-- `aligned_address`. -/
def alignedAddress (base offset alignment : ℕ) : Option ℕ :=
  if addOverflows base offset then none
  else
    let remainder := (base + offset) % alignment
    let padding := if remainder = 0 then 0 else alignment - remainder
    if addOverflows offset padding then none else some (offset + padding)

/-- The arguments of `acquire_scratch_lease`, and the session it is called for. -/
structure Request where
  session : ℕ
  gpuNodeId : ℕ
  poolSize : ℕ
  size : ℕ
  alignment : ℕ
  deriving DecidableEq

/-- The arguments are accepted. -/
def Request.Valid (request : Request) : Prop :=
  ¬(request.poolSize = 0 ∨ request.size = 0 ∨ request.poolSize < request.size ∨
    request.poolSize % memoryPageSize.toNat ≠ 0 ∨ request.size % memoryPageSize.toNat ≠ 0 ∨
    request.alignment = 0 ∨ request.alignment &&& (request.alignment - 1) ≠ 0)

instance (request : Request) : Decidable request.Valid := inferInstanceAs (Decidable (¬_))

/-- `ScratchLease`, and the alignment it was asked for. -/
structure Lease where
  offset : ℕ
  size : ℕ
  mapped : Bool
  rangeReturned : Bool
  alignment : ℕ

/-- `ScratchPoolState`, with everything that refers to it. -/
structure Pool where
  gpuNodeId : ℕ
  /-- The address of the reservation. -/
  base : ℕ
  capacity : ℕ
  /-- The reservation has not been freed. -/
  reserved : Bool := true
  ranges : List Tile
  activeLeases : ℕ := 0
  retired : Bool := false
  /-- The thread that has the lock. -/
  lock : Option ℕ := none
  /-- The leases, each with a reference to the pool. -/
  leases : List Lease := []
  /-- The threads with a reference to the pool. -/
  holders : List ℕ := []
  /-- How many ranges are still mapped after their lease has been destroyed. -/
  orphans : ℕ := 0
  /-- How many ranges were mapped at each call that frees the reservation. -/
  frees : List ℕ := []

namespace Pool

/-- No reference is left. -/
def expired (pool : Pool) : Bool := pool.leases.isEmpty && pool.holders.isEmpty

/-- The number of ranges that are mapped on the GPU. -/
def mappedRanges (pool : Pool) : ℕ := (pool.leases.countP fun lease => lease.mapped) + pool.orphans

/-- `MemoryAllocation::release` of the reservation, and whether it succeeds. -/
def releaseReservation (freed : Bool) (pool : Pool) : Pool × Bool :=
  if pool.reserved then
    ({ pool with reserved := !freed, frees := pool.mappedRanges :: pool.frees }, freed)
  else (pool, true)

/-- Where a lease fits into a range. -/
def fits (base alignment size : ℕ) (range : Tile) : Option ℕ :=
  if range.free = false then none
  else (alignedAddress base range.offset alignment).filter fun candidate =>
    !(decide (candidate < range.offset) || decide (range.size < candidate - range.offset) ||
      decide (range.size - (candidate - range.offset) < size))

end Pool

/-- `carve_scratch_range`; the nodes of the lease and of what is behind it may not be allocated. -/
def carveScratchRange (leaseStored suffixStored : Bool) (before : List Tile) (range : Tile)
    (behind : List Tile) (offset size : ℕ) : Option (List Tile) :=
  if offset ≠ range.offset ∧ leaseStored = false then none
  else if offset + size ≠ range.offset + range.size ∧ suffixStored = false then none
  else some (before ++ (carve range offset size ++ behind))

/-- How the calls of `acquire_scratch_lease` under the lock of the pool end. -/
structure AcquireOutcome where
  leaseStored : Bool
  suffixStored : Bool
  mapped : Bool
  /-- The text of a failed map call can be allocated. -/
  message : Bool
  freed : Bool
  /-- The text of a failed cleanup can be allocated. -/
  note : Bool

/-- A map call has failed: the range is returned already. -/
def Pool.abandon (t size alignment : ℕ) (outcome : AcquireOutcome) (pool : Pool) :
    Pool × MemoryError × Bool :=
  if outcome.message ∧ pool.activeLeases = 0 then
    match pool.releaseReservation outcome.freed with
    | (pool, true) => ({ pool with retired := true }, .mapToGpu, true)
    | (pool, false) =>
      if outcome.note then
        ({ pool with
            leases := ⟨0, size, false, true, alignment⟩ :: pool.leases
            holders := pool.holders.erase t }, .mapToGpu, false)
      else (pool, .mapToGpu, true)
  else (pool, .mapToGpu, true)

/-- The part of `acquire_scratch_lease` under the lock of the pool: the pool, what is returned, and
whether the thread still has its reference. Nothing if an assertion fails. -/
def Pool.acquire (t : ℕ) (request : Request) (outcome : AcquireOutcome) (pool : Pool) :
    Option (Pool × MemoryError × Bool) :=
  match firstFit (Pool.fits pool.base request.alignment request.size) pool.ranges with
  | none => some ({ pool with lock := none }, .allocateScratch, true)
  | some (before, range, behind, offset) =>
    if addOverflows pool.base offset then
      some ({ pool with lock := none }, .allocateScratch, true)
    else
      match carveScratchRange outcome.leaseStored outcome.suffixStored before range behind offset
          request.size with
      | none => some ({ pool with lock := none }, .allocateScratch, true)
      | some ranges =>
        if outcome.mapped then
          some ({ pool with
              ranges
              activeLeases := pool.activeLeases + 1
              lock := none
              leases := ⟨offset, request.size, true, false, request.alignment⟩ :: pool.leases
              holders := pool.holders.erase t }, .none, false)
        else (giveBack offset ranges).map fun ranges =>
          { pool with ranges, lock := none }.abandon t request.size request.alignment outcome

/-- A lease without its range. -/
def Lease.returned (lease : Lease) : Lease := { lease with mapped := false, rangeReturned := true }

/-- A lease that is not mapped any more returns its range, unless it has done so before. -/
def Pool.returnRange (index : ℕ) (lease : Lease) (pool : Pool) : Option Pool :=
  if lease.rangeReturned then some { pool with leases := pool.leases.set index lease.returned }
  else (giveBack lease.offset pool.ranges).map fun ranges =>
    { pool with
      ranges
      activeLeases := pool.activeLeases - 1
      leases := pool.leases.set index lease.returned }

/-- The last active lease frees the reservation. -/
def Pool.finish (freed : Bool) (pool : Pool) : Pool × MemoryError :=
  if pool.activeLeases = 0 ∧ pool.reserved = true then
    match pool.releaseReservation freed with
    | (pool, true) => ({ pool with retired := true }, .none)
    | (pool, false) => (pool, .freeMemory)
  else (pool, .none)

/-- `ScratchLease::release` under the lock of the pool. -/
def Pool.release (index : ℕ) (unmapped freed : Bool) (pool : Pool) : Option (Pool × MemoryError) :=
  match pool.leases[index]? with
  | none => none
  | some lease =>
    if lease.mapped ∧ unmapped = false then some (pool, .unmapFromGpu)
    else (pool.returnRange index lease).map (Pool.finish freed)

/-- The lease object is gone; its reference passes to the thread, which lets it go. -/
def Pool.forget (t index : ℕ) (pool : Pool) : Pool :=
  { pool with
    leases := pool.leases.eraseIdx index
    holders := t :: pool.holders
    orphans := pool.orphans + if pool.leases[index]?.any Lease.mapped then 1 else 0 }

/-! ## Threads -/

/-- Where a thread is. -/
inductive Phase where
  | idle
  /-- It has found a pool and waits for its lock, with the lock of the session. -/
  | waiting (request : Request) (pool : ℕ)
  /-- There is no pool; it has the lock of the session. -/
  | reserving (request : Request)
  /-- It has registered a reservation of the GPU, with the lock of the session. -/
  | allocating (request : Request)
  /-- It has the lock of the pool. -/
  | locked (request : Request) (pool : ℕ)
  /-- It lets a reference go. -/
  | leaving (pool : ℕ)
  /-- It has let the last reference go. -/
  | destroying (pool : ℕ)
  deriving DecidableEq

/-- The pool that a thread refers to. -/
def Phase.pool : Phase → Option ℕ
  | .waiting _ pool => some pool
  | .locked _ pool => some pool
  | .leaving pool => some pool
  | .idle | .reserving _ | .allocating _ | .destroying _ => none

/-- The session whose lock a thread has. -/
def Phase.session : Phase → Option ℕ
  | .waiting request _ => some request.session
  | .reserving request => some request.session
  | .allocating request => some request.session
  | .idle | .locked _ _ | .leaving _ | .destroying _ => none

/-- All pools of the process, its registry of reserved GPUs, its sessions and its threads. -/
structure State where
  /-- `gpu_node_ids` of the registry. -/
  registry : ℕ → Bool
  /-- The thread that has the `scratch_pool_mutex` of a session. -/
  stateLock : ℕ → Option ℕ
  /-- `scratch_pools` of a session: weak references, by GPU. -/
  scratchPools : ℕ → ℕ → Option ℕ
  pools : ℕ → Option Pool
  nextPool : ℕ
  threads : ℕ → Phase
  /-- What the last call of a thread has returned. -/
  results : ℕ → MemoryError

/-- A process without scratch memory. -/
def State.initial : State where
  registry _ := false
  stateLock _ := none
  scratchPools _ _ := none
  pools _ := none
  nextPool := 0
  threads _ := .idle
  results _ := .none

namespace State

variable (s : State)

/-- A thread goes on. -/
def proceed (t : ℕ) (phase : Phase) : State :=
  { s with threads := Function.update s.threads t phase }

/-- What is known of the call of a thread. -/
def result (t : ℕ) (error : MemoryError) : State :=
  { s with results := Function.update s.results t error }

/-- A thread lets the lock of a session go. -/
def unlock (session : ℕ) : State :=
  { s with stateLock := Function.update s.stateLock session none }

/-- A pool changes; a reservation that it has freed leaves the registry
(`release_scratch_reservation`). -/
def put (p : ℕ) (old new : Pool) : State :=
  { s with
    pools := Function.update s.pools p (some new)
    registry := if old.reserved && !new.reserved then
      Function.update s.registry new.gpuNodeId false else s.registry }

/-- `scratch_pools.find` and the lock of the session. -/
def find (t : ℕ) (request : Request) : State :=
  let locked := { s with stateLock := Function.update s.stateLock request.session (some t) }
  match (s.scratchPools request.session request.gpuNodeId).bind fun p =>
      ((s.pools p).filter fun pool => !pool.expired).map (p, ·) with
  | none => locked.proceed t (.reserving request)
  | some (p, pool) =>
    (locked.put p pool { pool with holders := t :: pool.holders }).proceed t (.waiting request p)

/-- The lock of the pool that was found. A pool without a reservation is let go: nothing is left
for its destructor to free. -/
def lockPool (t p : ℕ) (request : Request) (pool : Pool) : State :=
  if pool.retired ∨ pool.reserved = false then
    { s.put p pool { pool with holders := pool.holders.erase t } with
      scratchPools := Function.update s.scratchPools request.session
        (Function.update (s.scratchPools request.session) request.gpuNodeId none) }.proceed t
      (.reserving request)
  else if pool.capacity ≠ request.poolSize then
    ((s.unlock request.session).result t .invalidSize).proceed t (.leaving p)
  else
    ((s.unlock request.session).put p pool { pool with lock := some t }).proceed t
      (.locked request p)

/-- `acquire_scratch_reservation`; the entry of the registry may not be allocated. -/
def reserve (t : ℕ) (request : Request) (stored : Bool) : State :=
  if s.registry request.gpuNodeId then
    ((s.unlock request.session).result t .scratchAlreadyReserved).proceed t .idle
  else if stored = false then (s.unlock request.session).proceed t .idle
  else { s with registry := Function.update s.registry request.gpuNodeId true }.proceed t
    (.allocating request)

end State

/-- How the allocation of a pool ends. -/
structure AllocateOutcome where
  /-- The address, if `hsaKmtAllocMemory` succeeds. -/
  address : Option ℕ
  /-- The pool, its first range and its entry in the session can be allocated. -/
  made : Bool
  emplaced : Bool
  published : Bool
  /-- The reservation is freed if they cannot be, by `release` or else by the destructor. -/
  freed : Bool
  freedAgain : Bool

/-- Memory that is allocated is in the address space and not at its start. -/
def AllocateOutcome.Possible (outcome : AllocateOutcome) (poolSize : ℕ) : Prop :=
  ∀ address ∈ outcome.address, 0 < address ∧ address + poolSize ≤ 2 ^ 64

instance (outcome : AllocateOutcome) (poolSize : ℕ) : Decidable (outcome.Possible poolSize) :=
  inferInstanceAs (Decidable (∀ address ∈ outcome.address, _))

/-- A pool that has just been reserved. -/
def Pool.fresh (request : Request) (address : ℕ) : Pool where
  gpuNodeId := request.gpuNodeId
  base := address
  capacity := request.poolSize
  ranges := [⟨0, request.poolSize, true⟩]

/-- `release` and the destructor of a reservation without a pool. -/
def Pool.discard (freed freedAgain : Bool) (pool : Pool) : Pool :=
  ((pool.releaseReservation freed).1.releaseReservation freedAgain).1

namespace State

/-- A reservation is allocated and gets a pool. -/
def allocate (s : State) (t : ℕ) (request : Request) (outcome : AllocateOutcome) : State :=
  let unlocked := s.unlock request.session
  match outcome.address with
  | none =>
    (({ unlocked with registry := Function.update s.registry request.gpuNodeId false }).result t
      .allocateScratch).proceed t .idle
  | some address =>
    let created := { unlocked with nextPool := s.nextPool + 1 }
    let pool := Pool.fresh request address
    if outcome.made ∧ outcome.emplaced ∧ outcome.published then
      ({ created with
          scratchPools := Function.update s.scratchPools request.session
            (Function.update (s.scratchPools request.session) request.gpuNodeId
              (some s.nextPool)) }.put s.nextPool pool
        { pool with lock := some t, holders := [t] }).proceed t (.locked request s.nextPool)
    else
      ((created.put s.nextPool pool (pool.discard outcome.freed outcome.freedAgain)).result t
        .allocateScratch).proceed t .idle

/-- The section under the lock of the pool. -/
def carve (s : State) (t p : ℕ) (request : Request) (pool : Pool) (outcome : AcquireOutcome) :
    Option State :=
  (pool.acquire t request outcome).map fun (new, error, kept) =>
    ((s.put p pool new).result t error).proceed t (if kept then .leaving p else .idle)

/-- `ScratchLease::release`, or the destructor of a lease, which ignores a failure. -/
def release (s : State) (t p index : ℕ) (pool : Pool) (destroyed unmapped freed : Bool) :
    Option State :=
  (pool.release index unmapped freed).map fun (new, error) =>
    if error = .none ∨ destroyed then
      ((s.put p pool (new.forget t index)).result t error).proceed t (.leaving p)
    else (s.put p pool new).result t error

/-- The thread lets its reference go. -/
def leave (s : State) (t p : ℕ) (pool : Pool) : State :=
  let left := { pool with holders := pool.holders.erase t }
  (s.put p pool left).proceed t (if left.expired then .destroying p else .idle)

/-- The destructor of a pool. -/
def destroy (s : State) (t p : ℕ) (pool : Pool) (freed : Bool) : State :=
  (s.put p pool (pool.releaseReservation freed).1).proceed t .idle

end State

/-- What happens next. -/
inductive Label where
  /-- A thread calls `acquire_scratch_lease` and gets the lock of the session. -/
  | find (t : ℕ) (request : Request)
  /-- It gets the lock of the pool it has found. -/
  | lock (t : ℕ)
  | reserve (t : ℕ) (stored : Bool)
  | allocate (t : ℕ) (outcome : AllocateOutcome)
  | carve (t : ℕ) (outcome : AcquireOutcome)
  /-- A thread releases a lease, or destroys it. -/
  | release (t p index : ℕ) (destroyed unmapped freed : Bool)
  | leave (t : ℕ)
  | destroy (t : ℕ) (freed : Bool)

/-- One step of a thread. -/
def step : Label → State → Option State
  | .find t request, s =>
    match s.threads t with
    | .idle =>
      if request.Valid ∧ s.stateLock request.session = none then some (s.find t request) else none
    | _ => none
  | .lock t, s =>
    match s.threads t with
    | .waiting request p =>
      ((s.pools p).filter fun pool => pool.lock = none).map (s.lockPool t p request)
    | _ => none
  | .reserve t stored, s =>
    match s.threads t with
    | .reserving request => some (s.reserve t request stored)
    | _ => none
  | .allocate t outcome, s =>
    match s.threads t with
    | .allocating request =>
      if outcome.Possible request.poolSize then some (s.allocate t request outcome) else none
    | _ => none
  | .carve t outcome, s =>
    match s.threads t with
    | .locked request p => (s.pools p).bind fun pool => s.carve t p request pool outcome
    | _ => none
  | .release t p index destroyed unmapped freed, s =>
    match s.threads t with
    | .idle => ((s.pools p).filter fun pool => pool.lock = none).bind fun pool =>
        s.release t p index pool destroyed unmapped freed
    | _ => none
  | .leave t, s =>
    match s.threads t with
    | .leaving p => (s.pools p).map (s.leave t p)
    | _ => none
  | .destroy t freed, s =>
    match s.threads t with
    | .destroying p => (s.pools p).map fun pool => s.destroy t p pool freed
    | _ => none

end LightRocm.Hsakmt
