import LightRocm.Lib.AddressSpace
import LightRocm.Lib.Program

/-!
# The kernel as the KFD transport sees it

The address space of the process and what the KFD driver holds for it: buffers
with the devices they are mapped on, queues and events. Every system call takes
the next answer of a script, which also tells what other threads of the process do
before the call. The kernel keeps to its contract: it places a mapping only where
nothing is mapped, at a page, within the address space, and it reports the
progress it has made. Objects of the driver have names that are not used again.

Calls that give something back are written to a record, together with what is true
at that moment.
-/

namespace LightRocm.Transport

open AddressSpace

/-- The parts an object of the transport can hold memory for. -/
inductive Part where
  | memory
  | scratch
  | pool
  | ring
  | control
  | eop
  | cwsr
  | doorbell
  | trapHandler
  | eventPage
  deriving DecidableEq

/-- An allocation of the transport: the object that has made it, and the part it is for. -/
structure Name where
  object : ℕ
  part : Part
  deriving DecidableEq

/-- Who has made a mapping: an allocation of the transport, or someone else. -/
abbrev Owner : Type := Option Name

/-- A buffer of the driver. -/
structure Buffer where
  /-- The handle the driver knows it by. -/
  handle : ℕ
  /-- The allocation it belongs to. -/
  owner : Name
  /-- The devices it is mapped on. -/
  mapped : List ℕ
  deriving DecidableEq

/-- A hardware queue of the driver. -/
structure KernelQueue where
  /-- Its identifier. -/
  id : ℕ
  /-- The allocations whose memory the create call names. -/
  memory : List Name
  deriving DecidableEq

/-- What another thread does with the address space. -/
inductive Others where
  /-- Map memory at an address the kernel chooses. -/
  | map (start size : ℕ)
  /-- Unmap memory of its own. -/
  | unmap (start size : ℕ)
  deriving DecidableEq

/-- The answer to a system call. -/
structure Answer where
  /-- What other threads do before the call. -/
  others : List Others := []
  /-- The progress of attempts that are interrupted and made again. -/
  interrupted : List ℕ := []
  /-- The call succeeds. -/
  ok : Bool := true
  /-- The progress of the last attempt; all of the rest by default. -/
  progress : Option ℕ := none
  /-- The address of a new mapping. -/
  address : UInt64 := 0
  /-- The driver returns a handle that is zero. -/
  zeroHandle : Bool := false
  /-- The offset the driver returns, for a mapping or a doorbell. -/
  offset : UInt64 := 0

/-- What an address range is that is unmapped. -/
inductive Unmapped where
  /-- All of a reservation. -/
  | reservation
  /-- The doorbell of a queue, within its reservation. -/
  | doorbell
  deriving DecidableEq

/-- A call that gives something back. `busy` tells that an active queue names the memory. -/
inductive Record where
  /-- Unmap from the devices of the allocation, from `first` on. -/
  | unmapFromGpu (owner : Name) (first reached : ℕ) (busy : Bool)
  /-- Unmap addresses; `foreign` if some of them belong to someone else. -/
  | munmap (what : Unmapped) (owner : Name) (start size : ℕ) (foreign busy ok : Bool)
  /-- Free a buffer that is mapped on the devices `mapped`. -/
  | free (owner : Name) (handle : ℕ) (mapped : List ℕ) (busy ok : Bool)
  /-- Give a range back to the scratch pool. -/
  | giveBack (owner : Name) (busy ok : Bool)
  /-- Destroy a hardware queue. -/
  | destroyQueue (queue : ℕ) (ok : Bool)
  /-- Destroy an event. -/
  | destroyEvent (event : ℕ) (ok : Bool)
  deriving DecidableEq

/-- The kernel. -/
structure Kernel where
  /-- The address space of the process. -/
  space : Space Owner
  buffers : List Buffer
  queues : List KernelQueue
  events : List ℕ
  /-- The next unused names. -/
  nextHandle : ℕ
  nextQueue : ℕ
  nextEvent : ℕ
  /-- What has been given back so far. -/
  record : List Record
  /-- The answers to the calls to come. -/
  answers : List Answer

/-- A program that makes system calls. -/
abbrev Calls (α : Type) : Type := Program Kernel α

/-- The last address plus one. -/
def addressLimit : ℕ := 2 ^ 64

/-- A range the kernel may choose for a new mapping. -/
def placeable (space : Space Owner) (start size : ℕ) : Bool :=
  decide (0 < start) && decide (start % 4096 = 0) && decide (start + size ≤ addressLimit) &&
    isFree space start size

/-- What another thread does. -/
def Others.apply (space : Space Owner) : Others → Space Owner
  | .map start size =>
    if placeable space start size then ⟨start, size, none⟩ :: space else space
  | .unmap start size => removeWhere (fun owner => decide (owner = none)) space start size

/-- Take the next answer; other threads come first. -/
def nextAnswer : Calls Answer := fun kernel =>
  let answer := kernel.answers.headD {}
  (answer, { kernel with
    answers := kernel.answers.tail
    space := answer.others.foldl Others.apply kernel.space })

/-- A call whose only result is whether it succeeds: `madvise`, an `ioctl` without results,
or an allocation of host memory. -/
def succeeds : Calls Bool := do
  let answer ← nextAnswer
  return answer.ok

/-- Some active queue names the memory of an allocation. -/
def Kernel.busy (kernel : Kernel) (owner : Name) : Bool :=
  kernel.queues.any fun queue => decide (owner ∈ queue.memory)

/-- Write to the record. -/
def Kernel.note (kernel : Kernel) (entry : Record) : Kernel :=
  { kernel with record := kernel.record ++ [entry] }

/-- `mmap` at an address of the kernel's choice. -/
def mmap (owner : Name) (size : UInt64) : Calls (Option UInt64) := do
  let answer ← nextAnswer
  let kernel ← get
  if answer.ok ∧ placeable kernel.space answer.address.toNat size.toNat then
    set { kernel with
      space := ⟨answer.address.toNat, size.toNat, some owner⟩ :: kernel.space }
    return some answer.address
  else return none

/-- `mmap` with `MAP_FIXED`. -/
def mmapFixed (owner : Name) (address size : UInt64) : Calls Bool := do
  let ok ← succeeds
  if ok then
    modify fun kernel => { kernel with
      space := place kernel.space (⟨address.toNat, size.toNat, some owner⟩ : Region Owner) }
    return true
  else return false

/-- Some address of the range belongs to someone else. -/
def Kernel.foreign (kernel : Kernel) (owner : Name) (start size : ℕ) : Bool :=
  kernel.space.any fun region => region.meets start size && decide (region.owner ≠ some owner)

/-- `munmap`. -/
def munmap (what : Unmapped) (owner : Name) (address size : UInt64) : Calls Bool := do
  let ok ← succeeds
  modify fun kernel => kernel.note (.munmap what owner address.toNat size.toNat
    (kernel.foreign owner address.toNat size.toNat) (kernel.busy owner) ok)
  if ok then
    modify fun kernel => { kernel with space := remove kernel.space address.toNat size.toNat }
    return true
  else return false

/-- `AMDKFD_IOC_ALLOC_MEMORY_OF_GPU`: the handle and the offset to map the buffer with, if the
call succeeds. -/
def allocMemoryOfGpu (owner : Name) : Calls (Option (ℕ × UInt64)) := do
  let answer ← nextAnswer
  if answer.ok = false then return none
  else if answer.zeroHandle then return some (0, answer.offset)
  else
    let kernel ← get
    set { kernel with
      buffers := kernel.buffers ++ [(⟨kernel.nextHandle, owner, []⟩ : Buffer)]
      nextHandle := kernel.nextHandle + 1 }
    return some (kernel.nextHandle, answer.offset)

/-- One attempt of a call that goes through `count` devices, from `first` on. -/
def attempt (count first progress : ℕ) : ℕ := first + min progress (count - first)

/-- The progress of a call that is made again as long as it is interrupted. -/
def attempts (count first : ℕ) (answer : Answer) : ℕ :=
  attempt count (answer.interrupted.foldl (attempt count) first) (answer.progress.getD count)

/-- Change the buffer with a handle. -/
def Kernel.updateBuffer (kernel : Kernel) (handle : ℕ) (f : List ℕ → List ℕ) : Kernel :=
  { kernel with buffers := kernel.buffers.map fun buffer =>
      if buffer.handle = handle then { buffer with mapped := f buffer.mapped } else buffer }

/-- `AMDKFD_IOC_MAP_MEMORY_TO_GPU`: the progress the driver reports, and whether the call
succeeds. -/
def mapMemoryToGpu (handle : ℕ) (devices : List ℕ) (count first : ℕ) : Calls (ℕ × Bool) := do
  let answer ← nextAnswer
  let reached := attempts count first answer
  modify fun kernel => kernel.updateBuffer handle fun mapped =>
    mapped ++ (devices.take reached).drop first
  return (reached, answer.ok)

/-- `AMDKFD_IOC_UNMAP_MEMORY_FROM_GPU`. -/
def unmapMemoryFromGpu (owner : Name) (handle : ℕ) (devices : List ℕ) (count first : ℕ) :
    Calls (ℕ × Bool) := do
  let answer ← nextAnswer
  let reached := attempts count first answer
  modify fun kernel => (kernel.note (.unmapFromGpu owner first reached
    (kernel.busy owner))).updateBuffer handle fun mapped =>
      mapped.filter fun device => decide (device ∉ (devices.take reached).drop first)
  return (reached, answer.ok)

/-- The devices on which the buffer with a handle is mapped. -/
def Kernel.mappedDevices (kernel : Kernel) (handle : ℕ) : List ℕ :=
  (kernel.buffers.filter fun buffer => decide (buffer.handle = handle)).flatMap Buffer.mapped

/-- `AMDKFD_IOC_FREE_MEMORY_OF_GPU`. -/
def freeMemoryOfGpu (owner : Name) (handle : ℕ) : Calls Bool := do
  let ok ← succeeds
  modify fun kernel => kernel.note (.free owner handle (kernel.mappedDevices handle)
    (kernel.busy owner) ok)
  if ok then
    modify fun kernel => { kernel with
      buffers := kernel.buffers.filter fun buffer => decide (buffer.handle ≠ handle) }
    return true
  else return false

end LightRocm.Transport
