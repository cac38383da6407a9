import LightRocm.Lib.Run
import LightRocm.Status

/-!
# Allocations and the pins of copies

The registries of device memory and of pinned host memory, and the calls
`lr_malloc`, `lr_free`, `lr_host_malloc`, `lr_host_free` and `lr_memcpy` of the
three backends. A copy looks its ranges up in the registries, pins the
allocations it finds, synchronizes the device and copies; a call that frees an
allocation waits until it has no pins. The synchronization of the device gives up
the global lock in the HSA and the direct KFD backend and ends with any status.
-/

namespace LightRocm.Memory

/-- The two registries, `g_allocations` and `g_host_allocations`. -/
inductive Kind where
  | device
  | host
  deriving DecidableEq

/-- An entry of a registry, `AllocationInfo` with its key. -/
structure Allocation where
  /-- The address the memory starts at. -/
  base : ℕ
  /-- The device. -/
  deviceIndex : ℕ
  /-- Number of bytes. -/
  size : ℕ
  /-- Copies that use the memory. -/
  activeOperations : ℕ := 0
  /-- The allocation is being freed. -/
  destroying : Bool := false
  /-- The memory the entry owns. -/
  id : ℕ
  deriving DecidableEq

/-- What is left of the memory of an allocation. -/
inductive Backing where
  /-- All of it. -/
  | intact
  /-- A part has been released, for instance the mapping of the device. -/
  | partly
  /-- Nothing. -/
  | released
  deriving DecidableEq

/-- The state under the global lock. -/
structure State where
  /-- The registries, in the order a loop goes through them. -/
  allocations : Kind → List Allocation
  /-- The memory of all allocations. -/
  backing : ℕ → Backing
  /-- The memory that has been released, in order. -/
  releases : List ℕ
  /-- The next unused name of memory. -/
  nextId : ℕ

/-- Change the entry of an address. -/
def State.update (s : State) (kind : Kind) (base : ℕ) (f : Allocation → Allocation) : State :=
  { s with
    allocations := Function.update s.allocations kind
      ((s.allocations kind).map fun a => if a.base = base then f a else a) }

/-- The entry of an address. -/
def State.find (s : State) (kind : Kind) (base : ℕ) : Option Allocation :=
  (s.allocations kind).find? fun a => decide (a.base = base)

variable (backend : Backend)

/-- Whether `size` bytes at `address` lie in the allocation: `find_allocation_base` and
`find_light_rocr_allocation`. -/
def contains (address size : ℕ) (a : Allocation) : Bool :=
  decide (a.base ≤ address) && match backend with
    | .hsa => decide (address - a.base ≤ a.size) && decide (size ≤ a.size - (address - a.base))
    | .lightRocr | .directKfd =>
      !(decide (a.size ≤ address - a.base) || decide (a.size - (address - a.base) < size))

/-- `find_allocation_base` and `find_light_rocr_allocation`. -/
def findAllocation (device address size : ℕ) (s : State) : Option Allocation :=
  (s.allocations .device).find? fun a =>
    decide (a.deviceIndex = device) && !a.destroying && contains backend address size a

/-- `translate_direct_kfd_device_pointer`. The address of an entry is its address on the device, and
`gpu_address()` is zero as soon as the mapping of the device is gone. -/
def translateDirectKfdDevicePointer (device address size : ℕ) (s : State) : ℕ :=
  match findAllocation .directKfd device address size s with
  | none => 0
  | some a =>
    let gpuAddress := if s.backing a.id = .intact then a.base else 0
    if sizeMax - (address - a.base) < gpuAddress then 0 else gpuAddress + (address - a.base)

/-- The result of `translate_host_pointer`. -/
inductive HostPointerLookup where
  | unregistered
  | valid (base : ℕ)
  | invalid
  deriving DecidableEq

/-- The entry that has been found. -/
def HostPointerLookup.base : HostPointerLookup → Option ℕ
  | .valid base => some base
  | .unregistered | .invalid => none

/-- `translate_host_pointer` and `translate_light_rocr_host_pointer`. -/
def translateHostPointer (device address size : ℕ) (s : State) : HostPointerLookup :=
  match (s.allocations .host).find? fun a =>
      decide (a.base ≤ address) && decide (address - a.base < a.size) with
  | none => .unregistered
  | some a =>
    if a.deviceIndex ≠ device ∨ a.destroying = true ∨ a.size - (address - a.base) < size then .invalid
    else .valid a.base

/-- A pin: the registry and the address of the entry. -/
abbrev Pin := Kind × ℕ

/-- `pin`; `full` when there is no memory for the list of pins. -/
def pin (p : Pin) (full : Bool) (s : State) : Option State :=
  match s.find p.1 p.2 with
  | none => none
  | some a =>
    if a.destroying || full then none
    else some (s.update p.1 p.2 fun a => { a with activeOperations := a.activeOperations + 1 })

/-- Take pins one after the other, up to the first that cannot be taken: whether all have
been taken, and those that have. -/
def pinAll : List Pin → List Bool → State → Bool × List Pin × State
  | [], _, s => (true, [], s)
  | p :: rest, full, s =>
    match pin p (full.headD false) s with
    | none => (false, [], s)
    | some s =>
      let (all, pins, s) := pinAll rest full.tail s
      (all, p :: pins, s)

/-- The destructor of the pins, `release`. -/
def releasePins (pins : List Pin) (s : State) : State :=
  pins.foldl (fun s p =>
    s.update p.1 p.2 fun a => { a with activeOperations := a.activeOperations - 1 }) s

/-- The arguments of `lr_memcpy`. -/
structure Copy where
  /-- The device. -/
  device : ℕ
  /-- Where to copy to. -/
  dst : ℕ
  /-- Where to copy from. -/
  src : ℕ
  /-- Number of bytes. -/
  size : ℕ
  /-- The direction. -/
  kind : MemcpyKind
  deriving DecidableEq

/-- The addresses on the device. -/
def Copy.deviceAddresses (copy : Copy) : List ℕ :=
  match copy.kind with
  | .hostToDevice => [copy.dst]
  | .deviceToHost => [copy.src]
  | .deviceToDevice => [copy.dst, copy.src]

/-- The address on the host, if there is one. -/
def Copy.hostAddress (copy : Copy) : Option ℕ :=
  match copy.kind with
  | .hostToDevice => some copy.src
  | .deviceToHost => some copy.dst
  | .deviceToDevice => none

/-- The lookup of the address on the host. -/
def Copy.hostLookup (copy : Copy) (s : State) : HostPointerLookup :=
  match copy.hostAddress with
  | none => .unregistered
  | some address => translateHostPointer copy.device address copy.size s

/-- The entries that hold the addresses on the device. -/
def Copy.findBases (copy : Copy) (s : State) : Option (List ℕ) :=
  copy.deviceAddresses.mapM fun address =>
    (findAllocation backend copy.device address copy.size s).map Allocation.base

/-- A copy that has been accepted. -/
structure Accepted where
  /-- The arguments. -/
  copy : Copy
  /-- The entries of the addresses on the device. -/
  bases : List ℕ
  /-- The entry of the address on the host; `none` for ordinary host memory. -/
  host : Option ℕ
  /-- The pins that have been taken. -/
  pins : List Pin
  deriving DecidableEq

/-- The pins on entries on the device and on one on the host, in the order they are taken. -/
def pinsOf (bases : List ℕ) (host : Option ℕ) : List Pin :=
  (bases.map fun base => (.device, base)) ++ host.toList.map fun base => (.host, base)

/-- The checks of `lr_memcpy` and its pins. A copy that is refused gives its pins back. -/
def accept (copy : Copy) (full : List Bool) (s : State) :
    Option Accepted × State :=
  match copy.findBases backend s with
  | none => (none, s)
  | some bases =>
    match backend with
    | .hsa =>
      let (all, pins, s) := pinAll (pinsOf bases none) [] s
      if all = false ∨ copy.hostLookup s = .invalid then (none, releasePins pins s)
      else
        let host := (copy.hostLookup s).base
        let (all, hostPins, s) := pinAll (pinsOf [] host) [] s
        if all = false then (none, releasePins hostPins (releasePins pins s))
        else (some ⟨copy, bases, host, pins ++ hostPins⟩, s)
    | .lightRocr =>
      -- The lock is kept to the end, and nothing is pinned.
      if copy.hostLookup s = .invalid then (none, s)
      else (some ⟨copy, bases, (copy.hostLookup s).base, []⟩, s)
    | .directKfd =>
      if (∃ address ∈ copy.deviceAddresses,
          translateDirectKfdDevicePointer copy.device address copy.size s = 0) ∨
          copy.hostLookup s = .invalid then (none, s)
      else
        let host := (copy.hostLookup s).base
        let (all, pins, s) := pinAll (pinsOf bases host) full s
        if all = false then (none, releasePins pins s) else (some ⟨copy, bases, host, pins⟩, s)

/-- The end of the attempt to release memory. -/
inductive ReleaseResult where
  /-- It has been released. -/
  | done
  /-- It could not be released. -/
  | refused
  /-- The first steps of the release have succeeded and a later one has failed. -/
  | partly
  deriving DecidableEq

/-- What the surroundings do during a section. -/
structure Inputs where
  /-- The address the allocator returns, if it does. -/
  allocated : Option ℕ := none
  /-- Whether there is no memory for a pin, once for each pin. -/
  full : List Bool := []
  /-- The status of the synchronization or of the copy. -/
  status : Status := .success
  /-- The end of the attempt to release memory. -/
  release : ReleaseResult := .done

/-- The calls. -/
inductive Call where
  /-- `lr_malloc` and `lr_host_malloc`. -/
  | malloc (kind : Kind) (device size : ℕ)
  /-- `lr_free` and `lr_host_free`. -/
  | free (kind : Kind) (device ptr : ℕ)
  /-- `lr_memcpy`. -/
  | memcpy (copy : Copy)
  /-- `lr_synchronize`. -/
  | synchronize (device : ℕ)
  deriving DecidableEq

/-- Where a thread stands. -/
inductive Task where
  /-- Outside the runtime. -/
  | ready
  /-- The call has returned. -/
  | returned (status : Status)
  /-- It waits until the allocation it frees has no pins. -/
  | freeWait (kind : Kind) (ptr : ℕ)
  /-- It frees the allocation and synchronizes the device. -/
  | freeSync (kind : Kind) (ptr : ℕ)
  /-- It synchronizes the device before a copy. -/
  | copySync (accepted : Accepted)
  /-- It copies. -/
  | copying (accepted : Accepted)
  deriving DecidableEq

/-- The granule of device memory. -/
def granule : Backend → ℕ
  | .hsa => 1
  | .lightRocr => 4096
  | .directKfd => 2 * 1024 * 1024

/-- `lr_malloc` and `lr_host_malloc`. The registry of the HSA backend overwrites an entry
of the same address, the others refuse it. -/
def malloc (kind : Kind) (device size : ℕ) (inputs : Inputs) (s : State) :
    Task × State :=
  if size = 0 ∨ (kind = .device ∧ 2 ^ 64 - granule backend < size) then (.returned .invalidArgument, s)
  else
    match inputs.allocated with
    | none => (.returned .runtime, s)
    | some base =>
      if backend ≠ .hsa ∧ (base = 0 ∨ (s.find kind base).isSome) then (.returned .runtime, s)
      else
        let entries := (s.allocations kind).filter fun a => decide (a.base ≠ base)
        (.returned .success, { s with
          allocations := Function.update s.allocations kind (entries ++
            [{ base := base, deviceIndex := device, size := size, id := s.nextId }])
          backing := Function.update s.backing s.nextId .intact
          nextId := s.nextId + 1 })

/-- `lr_free` and `lr_host_free` up to the wait for the pins. -/
def beginFree (kind : Kind) (device ptr : ℕ) (s : State) : Task × State :=
  match s.find kind ptr with
  | none => (.returned .invalidArgument, s)
  | some a =>
    if a.deviceIndex ≠ device ∨ a.destroying = true then (.returned .invalidArgument, s)
    else (.freeWait kind ptr, s.update kind ptr fun a => { a with destroying := true })

/-- The allocation is not freed after all. -/
def abandonFree (kind : Kind) (ptr : ℕ) (s : State) : State :=
  s.update kind ptr fun a => { a with destroying := false }

/-- `lr_free` and `lr_host_free` after the synchronization of the device. -/
def finishFree (kind : Kind) (ptr : ℕ) (inputs : Inputs) (s : State) :
    Option (Task × State) :=
  if inputs.status ≠ .success then some (.returned inputs.status, abandonFree kind ptr s)
  else
    match s.find kind ptr with
    | none => none
    | some a =>
      match inputs.release with
      | .done => some (.returned .success, { s with
          allocations := Function.update s.allocations kind
            ((s.allocations kind).filter fun a => decide (a.base ≠ ptr))
          backing := Function.update s.backing a.id .released
          releases := s.releases ++ [a.id] })
      | .refused => some (.returned .runtime, abandonFree kind ptr s)
      | .partly =>
        -- The HSA runtime releases memory in one call.
        let s := if backend = .hsa then s
          else { s with backing := Function.update s.backing a.id .partly }
        some (.returned .runtime, abandonFree kind ptr s)

/-- `lr_free` and `lr_host_free` when they wake up. The HSA backend looks for the entry
again, the others go on with the one they have found. -/
def resumeFree (kind : Kind) (ptr : ℕ) (inputs : Inputs) (s : State) :
    Option (Task × State) :=
  match s.find kind ptr with
  | none => if backend = .hsa then some (.returned .invalidArgument, s) else none
  | some a =>
    if a.activeOperations ≠ 0 then some (.freeWait kind ptr, s)
    else if backend = .lightRocr then finishFree backend kind ptr inputs s
    else some (.freeSync kind ptr, s)

/-- The first section of a call. -/
def Call.begin (inputs : Inputs) (s : State) : Call → Task × State
  | .malloc kind device size => Memory.malloc backend kind device size inputs s
  | .free kind device ptr => beginFree kind device ptr s
  | .memcpy copy =>
    if copy.size = 0 then (.returned .invalidArgument, s)
    else
      match accept backend copy inputs.full s with
      | (none, s) => (.returned .invalidArgument, s)
      | (some accepted, s) =>
        (if backend = .lightRocr then .copying accepted else .copySync accepted, s)
  | .synchronize _ => (.returned inputs.status, s)

/-- The next section of a call. -/
def Task.resume (inputs : Inputs) (s : State) : Task → Option (Task × State)
  | .ready | .returned _ => none
  | .freeWait kind ptr => resumeFree backend kind ptr inputs s
  | .freeSync kind ptr => finishFree backend kind ptr inputs s
  | .copySync accepted =>
    if inputs.status ≠ .success then some (.returned inputs.status, releasePins accepted.pins s)
    else some (.copying accepted, s)
  | .copying accepted => some (.returned inputs.status, releasePins accepted.pins s)

/-- Whether a thread keeps the lock between two sections: the light backends copy under it. -/
def Task.keepsLock : Task → Bool
  | .copying _ => decide (backend ≠ .hsa)
  | _ => false

/-- The runtime and the threads that call it. -/
structure Sys where
  /-- The state under the lock. -/
  shared : State
  /-- The thread that holds the lock between two sections. -/
  owner : Option ℕ
  /-- The threads. -/
  threads : List Task

/-- What happens next. -/
inductive Label where
  /-- Thread `t` makes a call. -/
  | call (t : ℕ) (call : Call) (inputs : Inputs)
  /-- Thread `t` goes on. -/
  | resume (t : ℕ) (inputs : Inputs)
  /-- A registry changes its order. -/
  | rehash (kind : Kind) (entries : List Allocation)

/-- What the surroundings do during a step. -/
def Label.inputs : Label → Inputs
  | .call _ _ inputs | .resume _ inputs => inputs
  | .rehash _ _ => {}

/-- Thread `t` has run a section. -/
def Sys.finish (sys : Sys) (t : ℕ) (result : Task × State) : Sys where
  shared := result.2
  owner := if result.1.keepsLock backend then some t else none
  threads := sys.threads.set t result.1

/-- One step of the system. -/
def Sys.step (label : Label) (sys : Sys) : Option Sys :=
  match label with
  | .call t call inputs =>
    if sys.owner = none then
      match sys.threads[t]? with
      | some .ready | some (.returned _) =>
        some (sys.finish backend t (call.begin backend inputs sys.shared))
      | _ => none
    else none
  | .resume t inputs =>
    if sys.owner = none ∨ sys.owner = some t then
      match sys.threads[t]? with
      | some task => (task.resume backend inputs sys.shared).map (sys.finish backend t)
      | none => none
    else none
  | .rehash kind entries =>
    if sys.owner = none ∧ entries.Perm (sys.shared.allocations kind) then
      some { sys with shared := { sys.shared with
        allocations := Function.update sys.shared.allocations kind entries } }
    else none

/-- No memory has been allocated. -/
def Sys.init (threads : ℕ) : Sys where
  shared := ⟨fun _ => [], fun _ => .released, [], 0⟩
  owner := none
  threads := List.replicate threads .ready

end LightRocm.Memory
