import LightRocm.Iree.Replay

/-!
# Queue operations and their semaphores

The queue operations of `executor/iree/hal_driver.c` run at once: each waits for its wait
semaphores, does its work and then advances or fails its signal semaphores. What IREE itself does
with a list of semaphores is not part of the driver; it is given with what is assumed about it.
-/

namespace LightRocm.Iree

open ByteMemory

/-- A timeline, and whether it was failed. -/
structure Semaphore where
  value : ℕ := 0
  failed : Bool := false
  deriving DecidableEq

/-- A semaphore of a list, with its payload. -/
structure SemaphoreEntry where
  semaphore : ℕ
  payload : ℕ
  /-- `lrrt_iree_hal_semaphore_is_lrrt`. -/
  isLrrt : Bool := true
  deriving DecidableEq

/-- Timelines have not gone back, and a semaphore that has failed is as it was. -/
def Later (before after : ℕ → Semaphore) : Prop :=
  ∀ semaphore, (before semaphore).value ≤ (after semaphore).value ∧
    ((before semaphore).failed = true → after semaphore = before semaphore)

/-- `iree_hal_semaphore_list_t`. -/
structure SemaphoreList where
  entries : List SemaphoreEntry
  /-- One of the two arrays is a null pointer. -/
  malformed : Bool := false
  deriving DecidableEq

/-- What IREE does with semaphores, and what the driver relies on. -/
structure SemaphoreOps where
  /-- `iree_async_semaphore_advance_timeline`. -/
  advance : Semaphore → ℕ → Except Failure Semaphore
  /-- `iree_hal_semaphore_list_wait`: how the wait ends, and all semaphores then. -/
  listWait : List SemaphoreEntry → (ℕ → Semaphore) → Option Failure × (ℕ → Semaphore)
  /-- `iree_hal_semaphore_list_signal`, with the driver's way to signal one semaphore. -/
  listSignal : (Semaphore → ℕ → Option Failure × Semaphore) → List SemaphoreEntry →
    (ℕ → Semaphore) → Option Failure × (ℕ → Semaphore)
  /-- `iree_hal_semaphore_list_fail`. -/
  listFail : List SemaphoreEntry → Failure → (ℕ → Semaphore) → ℕ → Semaphore
  /-- A timeline that is advanced has not failed, and reaches the value. -/
  advance_ok : ∀ {semaphore advanced : Semaphore} {value : ℕ},
    advance semaphore value = .ok advanced → semaphore.failed = false ∧ advanced.failed = false ∧
      semaphore.value ≤ advanced.value ∧ value ≤ advanced.value
  /-- One that is not advanced has failed, or is already there. -/
  advance_error : ∀ {semaphore : Semaphore} {value : ℕ} {failure : Failure},
    advance semaphore value = .error failure →
      semaphore.failed = true ∨ value ≤ semaphore.value
  /-- While a call waits, others advance or fail semaphores. -/
  listWait_later : ∀ entries semaphores, Later semaphores (listWait entries semaphores).2
  /-- A list is signalled in its order, up to the first semaphore that cannot be signalled. -/
  listSignal_nil : ∀ signal semaphores, listSignal signal [] semaphores = (none, semaphores)
  listSignal_cons : ∀ signal entry rest semaphores,
    listSignal signal (entry :: rest) semaphores =
      let signalled := signal (semaphores entry.semaphore) entry.payload
      let after := Function.update semaphores entry.semaphore signalled.2
      if signalled.1 = none then listSignal signal rest after else (signalled.1, after)
  /-- All semaphores of a list are failed. -/
  listFail_failed : ∀ entries failure semaphores, ∀ entry ∈ entries,
    (listFail entries failure semaphores entry.semaphore).failed = true
  listFail_later : ∀ entries failure semaphores,
    Later semaphores (listFail entries failure semaphores)

/-- The device and all semaphores. -/
structure Queue where
  device : Device
  semaphores : ℕ → Semaphore

/-- A call on the queue returns nothing, or how it failed. -/
abbrev Submission : Type := Program Queue (Option Failure)

/-- `lrrt_iree_hal_device_validate_semaphore_list`. -/
def validateSemaphoreList (operation : String) (list : SemaphoreList) : Option Failure :=
  if list.entries = [] then none
  else if list.malformed = true then
    some ⟨.invalidArgument, "lrrt HAL device " ++ operation ++ " semaphore list is malformed"⟩
  else if list.entries.any (fun entry => !entry.isLrrt) = true then
    some ⟨.invalidArgument, "lrrt HAL device " ++ operation ++ " requires lrrt-owned semaphores"⟩
  else none

/-- The failure of work that stopped. -/
def failureOf : Except Failure Unit → Option Failure
  | .ok _ => none
  | .error failure => some failure

/-- Work on the device. -/
def onDevice (work : Operation Unit) : Submission := fun queue =>
  let result := work.run queue.device
  (failureOf result.1, { queue with device := result.2 })

variable (ops : SemaphoreOps)

/-- `lrrt_iree_hal_device_begin_synchronous_submission`. -/
def beginSynchronousSubmission (operation : String) (waits : SemaphoreList) :
    Submission := fun queue =>
  match validateSemaphoreList operation waits with
  | some failure => (some failure, queue)
  | none =>
    let waited := ops.listWait waits.entries queue.semaphores
    (waited.1, { queue with semaphores := waited.2 })

/-- `lrrt_iree_hal_semaphore_signal`: a semaphore that is already there is left as it is. -/
def semaphoreSignal (semaphore : Semaphore) (newValue : ℕ) :
    Option Failure × Semaphore :=
  match ops.advance semaphore newValue with
  | .ok advanced => (none, advanced)
  | .error failure =>
    if semaphore.failed = false ∧ newValue ≤ semaphore.value then (none, semaphore)
    else (some failure, semaphore)

/-- `lrrt_iree_hal_device_finish_queue_operation`. -/
def finishQueueOperation (operation : String) (signals : SemaphoreList) (status : Option Failure) :
    Submission := fun queue =>
  match validateSemaphoreList operation signals with
  | some failure => (some failure, queue)
  | none =>
    match status with
    | some failure =>
      (some failure, { queue with
        semaphores := ops.listFail signals.entries failure queue.semaphores })
    | none =>
      let signalled := ops.listSignal (semaphoreSignal ops) signals.entries queue.semaphores
      (signalled.1, { queue with semaphores := signalled.2 })

/-- What a queue operation does once it has begun, or has failed to begin. -/
def submitBegun (operation : String) (signals : SemaphoreList) (work : Operation Unit) :
    Option Failure → Submission
  | some failure => return some failure
  | none => do
    let status ← onDevice work
    finishQueueOperation ops operation signals status

/-- What every queue operation does around its work. -/
def submission (operation : String) (waits signals : SemaphoreList) (work : Operation Unit) :
    Submission := do
  let begun ← beginSynchronousSubmission ops operation waits
  submitBegun ops operation signals work begun

/-- A HAL file. -/
structure File where
  canRead : Bool
  canWrite : Bool
  /-- Zero if it is not known. -/
  length : ℕ
  storageBuffer : Option Buffer
  synchronous : Bool
  contents : Memory

/-- A command buffer that is executed. -/
structure ExecutedBuffer where
  isLrrt : Bool := true
  commands : List CommandRecord

/-- The nine queue operations, with what they are given. -/
inductive QueueCall (hal : Hal) where
  | alloca (pool : Bool)
  | dealloca
  | fill (target : Buffer) (offset length : ℕ) (pattern : Option (List UInt8)) (patternLength : ℕ)
  | update (source : List UInt8) (sourceOffset : ℕ) (target : Buffer) (offset length : ℕ)
  | copy (source : Buffer) (sourceOffset : ℕ) (target : Buffer) (offset length : ℕ)
  | read (source : File) (sourceOffset : ℕ) (target : Buffer) (offset length : ℕ)
  | write (source : Buffer) (sourceOffset : ℕ) (target : File) (offset length : ℕ)
  /-- With an empty binding table. -/
  | dispatch (empty : hal.Table) (asked : Dispatch)
  | execute (commands : Option ExecutedBuffer) (table : hal.Table)

/-- `lrrt_iree_hal_device_queue_alloca`. -/
def queueAlloca (pool : Bool) (waits signals : SemaphoreList) : Submission :=
  if pool = true then
    return some ⟨.unimplemented, "lrrt HAL device queue allocation pool is not implemented yet"⟩
  else submission ops "queue allocation" waits signals (access 0 id)

/-- `lrrt_iree_hal_device_queue_dealloca`. -/
def queueDealloca (waits signals : SemaphoreList) : Submission :=
  submission ops "queue deallocation" waits signals (return ())

/-- `lrrt_iree_hal_device_queue_fill`. -/
def queueFill (target : Buffer) (offset length : ℕ) (pattern : Option (List UInt8))
    (patternLength : ℕ) (waits signals : SemaphoreList) : Submission :=
  submission ops "queue fill" waits signals (fillNow target offset length pattern patternLength)

/-- `lrrt_iree_hal_device_queue_update`. -/
def queueUpdate (source : List UInt8) (sourceOffset : ℕ) (target : Buffer) (offset length : ℕ)
    (waits signals : SemaphoreList) : Submission :=
  submission ops "queue update" waits signals (updateNow source sourceOffset target offset length)

/-- `lrrt_iree_hal_device_queue_copy`. -/
def queueCopy (hal : Hal) (source : Buffer) (sourceOffset : ℕ) (target : Buffer) (offset length : ℕ)
    (waits signals : SemaphoreList) : Submission :=
  submission ops "queue copy" waits signals (copyNow hal source sourceOffset target offset length)

/-- The work of `lrrt_iree_hal_device_queue_read`. -/
def readNow (hal : Hal) (source : File) (sourceOffset : ℕ) (target : Buffer) (offset length : ℕ) :
    Operation Unit := do
  if length = 0 then return ()
  else
    refuse (source.canRead = false) .permissionDenied "file access"
    refuse (target.transferTarget = false) .permissionDenied
      "queue read target buffer lacks transfer-target usage"
    refuse (2 ^ 64 - 1 - sourceOffset < length) .outOfRange "queue read file range overflows uint64"
    refuse (0 < source.length ∧ source.length < sourceOffset + length) .outOfRange
      ("queue read range [" ++ toString sourceOffset ++ ", " ++ toString (sourceOffset + length) ++
        ") exceeds file length " ++ toString source.length)
    match source.storageBuffer with
    | some storage => copyNow hal storage sourceOffset target offset length
    | none =>
      refuse (source.synchronous = false) .invalidArgument
        "queue read source file does not support synchronous I/O"
      access length fun memory =>
        write memory (target.address + offset) (read source.contents sourceOffset length)

/-- `lrrt_iree_hal_device_queue_read`. -/
def queueRead (hal : Hal) (source : File) (sourceOffset : ℕ) (target : Buffer) (offset length : ℕ)
    (waits signals : SemaphoreList) : Submission :=
  submission ops "queue read" waits signals (readNow hal source sourceOffset target offset length)

/-- The work of `lrrt_iree_hal_device_queue_write`; the file is not on the device. -/
def writeNow (hal : Hal) (source : Buffer) (sourceOffset : ℕ) (target : File) (offset length : ℕ) :
    Operation Unit := do
  if length = 0 then return ()
  else
    refuse (target.canWrite = false) .permissionDenied "file access"
    refuse (source.transferSource = false) .permissionDenied
      "queue write source buffer lacks transfer-source usage"
    refuse (2 ^ 64 - 1 - offset < length) .outOfRange "queue write file range overflows uint64"
    match target.storageBuffer with
    | some storage => copyNow hal source sourceOffset storage offset length
    | none =>
      refuse (target.synchronous = false) .invalidArgument
        "queue write target file does not support synchronous I/O"
      access length id

/-- `lrrt_iree_hal_device_queue_write`. -/
def queueWrite (hal : Hal) (source : Buffer) (sourceOffset : ℕ) (target : File) (offset length : ℕ)
    (waits signals : SemaphoreList) : Submission :=
  submission ops "queue write" waits signals (writeNow hal source sourceOffset target offset length)

/-- `lrrt_iree_hal_device_queue_dispatch`. -/
def queueDispatch (hal : Hal) (empty : hal.Table) (asked : Dispatch) (waits signals : SemaphoreList)
    : Submission :=
  submission ops "queue dispatch" waits signals do
    dispatchNow hal empty asked
    synchronize

/-- The work of `lrrt_iree_hal_device_queue_execute`; the HAL validates the submission first. -/
def executeNow (hal : Hal) (commands : Option ExecutedBuffer) (table : hal.Table) :
    Operation Unit :=
  match commands with
  | none => return ()
  | some commandBuffer => do
    access 0 id
    refuse (commandBuffer.isLrrt = false) .invalidArgument
      "lrrt HAL queue execute requires an lrrt command buffer"
    replayCommandBuffer hal table commandBuffer.commands
    synchronize

/-- `lrrt_iree_hal_device_queue_execute`. -/
def queueExecute (hal : Hal) (commands : Option ExecutedBuffer) (table : hal.Table)
    (waits signals : SemaphoreList) : Submission :=
  submission ops "queue execute" waits signals (executeNow hal commands table)

/-- A queue operation. -/
def QueueCall.run {hal : Hal} (waits signals : SemaphoreList) : QueueCall hal → Submission
  | .alloca pool => queueAlloca ops pool waits signals
  | .dealloca => queueDealloca ops waits signals
  | .fill target offset length pattern patternLength =>
    queueFill ops target offset length pattern patternLength waits signals
  | .update source sourceOffset target offset length =>
    queueUpdate ops source sourceOffset target offset length waits signals
  | .copy source sourceOffset target offset length =>
    queueCopy ops hal source sourceOffset target offset length waits signals
  | .read source sourceOffset target offset length =>
    queueRead ops hal source sourceOffset target offset length waits signals
  | .write source sourceOffset target offset length =>
    queueWrite ops hal source sourceOffset target offset length waits signals
  | .dispatch empty asked => queueDispatch ops hal empty asked waits signals
  | .execute commands table => queueExecute ops hal commands table waits signals

/-- The name of an operation. -/
def QueueCall.operation {hal : Hal} : QueueCall hal → String
  | .alloca _ => "queue allocation"
  | .dealloca => "queue deallocation"
  | .fill .. => "queue fill"
  | .update .. => "queue update"
  | .copy .. => "queue copy"
  | .read .. => "queue read"
  | .write .. => "queue write"
  | .dispatch .. => "queue dispatch"
  | .execute .. => "queue execute"

/-- The work of an operation. -/
def QueueCall.work {hal : Hal} : QueueCall hal → Operation Unit
  | .alloca _ => access 0 id
  | .dealloca => return ()
  | .fill target offset length pattern patternLength =>
    fillNow target offset length pattern patternLength
  | .update source sourceOffset target offset length =>
    updateNow source sourceOffset target offset length
  | .copy source sourceOffset target offset length =>
    copyNow hal source sourceOffset target offset length
  | .read source sourceOffset target offset length =>
    readNow hal source sourceOffset target offset length
  | .write source sourceOffset target offset length =>
    writeNow hal source sourceOffset target offset length
  | .dispatch empty asked => do
    dispatchNow hal empty asked
    synchronize
  | .execute commands table => executeNow hal commands table

/-! ## Work that is done when it returns -/

/-- Nothing more is launched than before. -/
def Keeps {α : Type} (work : Operation α) : Prop :=
  ∀ device, work.Ensures device (fun _ after => after.pending = device.pending)
    fun after => after.pending = device.pending

/-- When the work is done, no kernel that it has launched is still running. -/
def Completes (work : Operation Unit) : Prop :=
  ∀ device, work.Ensures device
    (fun _ after => after.pending = [] ∨ after.pending = device.pending) fun _ => True

section Completion

open Fallible

variable {α β : Type}

theorem Keeps.pure (a : α) : Keeps (Pure.pure a : Operation α) := fun _ => Ensures.pure rfl

theorem Keeps.bind {x : Operation α} {f : α → Operation β} (hx : Keeps x) (hf : ∀ a, Keeps (f a)) :
    Keeps (x >>= f) := fun device =>
  Ensures.bind (hx device) fun a after hafter =>
    (hf a after).mono (fun _ _ h => h.trans hafter) fun _ h => h.trans hafter

theorem Keeps.ite {c : Prop} [Decidable c] {x y : Operation α} (hx : Keeps x) (hy : Keeps y) :
    Keeps (if c then x else y) := by
  split
  · exact hx
  · exact hy

theorem Keeps.ofExcept (x : Except Failure α) : Keeps (Fallible.ofExcept x) := fun _ =>
  Ensures.ofExcept (fun _ _ => rfl) fun _ _ => rfl

theorem keeps_refuse {bad : Prop} [Decidable bad] {code : StatusCode} {message : String} :
    Keeps (refuse bad code message) :=
  Keeps.ite (fun _ => Ensures.throw rfl) (Keeps.pure ())

theorem keeps_malloc {size : ℕ} {failure : Failure} : Keeps (malloc size failure) := by
  intro device
  have hany : tooLarge size → True := fun _ => trivial
  exact (ensures_malloc hany).mono (fun _ _ h => h.2.pending) fun _ h => h.pending

theorem keeps_access {size : ℕ} {change : Memory → Memory} : Keeps (access size change) := by
  intro device
  have hany : tooLarge size → True := fun _ => trivial
  exact (ensures_access hany).mono (fun _ _ h => h.2.pending) fun _ h => h.pending

variable {offset length : ℕ} {target : Buffer}

variable {sourceOffset : ℕ}

variable {hal : Hal}

theorem Keeps.completes {work : Operation Unit} (h : Keeps work) : Completes work := fun device =>
  (h device).mono (fun _ _ h => .inr h) fun _ _ => trivial

theorem Completes.bind {x : Operation Unit} {f : Unit → Operation Unit} (hx : Completes x)
    (hf : ∀ a, Completes (f a)) : Completes (x >>= f) := fun device => by
  refine Ensures.bind (hx device) fun a after hafter => (hf a after).mono (fun _ _ h => ?_)
    fun _ _ => trivial
  exact h.elim .inl fun h => hafter.imp h.trans h.trans

theorem Completes.synchronized (x : Operation Unit) : Completes (x >>= fun _ => synchronize) := by
  intro device
  have hx : x.Ensures device (fun _ _ => True) fun _ => True :=
    ⟨fun _ _ => trivial, fun _ _ => trivial⟩
  exact Ensures.bind hx fun _ _ _ =>
    ensures_synchronize.mono (fun _ _ h => .inl h.1) fun _ _ => trivial

end Completion

/-! ## Signal semaphores -/

/-- How an operation begins: an allocation from a pool is refused, and the others wait. -/
def QueueCall.begin {hal : Hal} (waits : SemaphoreList) :
    QueueCall hal → Submission
  | .alloca true =>
    return some ⟨.unimplemented, "lrrt HAL device queue allocation pool is not implemented yet"⟩
  | call => beginSynchronousSubmission ops call.operation waits

/-- The call has succeeded, its work is done and its signal semaphores are all advanced; or they are
all failed. -/
def QueueCall.Settled {hal : Hal} (call : QueueCall hal) (signals : SemaphoreList) (queue : Queue)
    (failure : Option Failure) (after : Queue) : Prop :=
  (failure = none ∧ call.work.run queue.device = (.ok (), after.device) ∧
    (after.device.pending = [] ∨ after.device.pending = queue.device.pending) ∧
    ∀ entry ∈ signals.entries, (after.semaphores entry.semaphore).failed = false ∧
      entry.payload ≤ (after.semaphores entry.semaphore).value) ∨
  ∀ entry ∈ signals.entries, (after.semaphores entry.semaphore).failed = true

section Signals

variable {hal : Hal} {ops : SemaphoreOps} {call : QueueCall hal} {waits signals : SemaphoreList}
  {queue : Queue}

theorem Later.trans {before middle after : ℕ → Semaphore} (h : Later before middle)
    (h' : Later middle after) : Later before after := by
  intro semaphore
  refine ⟨(h semaphore).1.trans (h' semaphore).1, fun hfailed => ?_⟩
  have hsame := (h semaphore).2 hfailed
  exact ((h' semaphore).2 (hsame ▸ hfailed)).trans hsame

theorem Later.refl (semaphores : ℕ → Semaphore) : Later semaphores semaphores :=
  fun _ => ⟨le_rfl, fun _ => rfl⟩

end Signals

/-- The semaphores of a list, one after the other. -/
def signalInOrder (signal : Semaphore → ℕ → Option Failure × Semaphore) :
    List SemaphoreEntry → (ℕ → Semaphore) → Option Failure × (ℕ → Semaphore)
  | [], semaphores => (none, semaphores)
  | entry :: rest, semaphores =>
    let signalled := signal (semaphores entry.semaphore) entry.payload
    let after := Function.update semaphores entry.semaphore signalled.2
    if signalled.1 = none then signalInOrder signal rest after else (signalled.1, after)

/-- Semaphores that nobody else touches; a wait for one that has failed, or that is not there yet,
fails. -/
def SemaphoreOps.alone : SemaphoreOps where
  advance semaphore value :=
    if semaphore.failed = true ∨ value ≤ semaphore.value then
      .error ⟨.internal, "semaphore cannot be advanced"⟩
    else .ok ⟨value, false⟩
  listWait entries semaphores :=
    (if ∀ entry ∈ entries, (semaphores entry.semaphore).failed = false ∧
        entry.payload ≤ (semaphores entry.semaphore).value then none
      else some ⟨.internal, "semaphore has failed"⟩, semaphores)
  listSignal := signalInOrder
  listFail entries _ semaphores semaphore :=
    if semaphore ∈ entries.map SemaphoreEntry.semaphore then
      { semaphores semaphore with failed := true }
    else semaphores semaphore
  advance_ok := by
    intro semaphore advanced value h
    split at h
    · cases h
    · rename_i halive
      obtain rfl := Except.ok.inj h
      rw [not_or, Bool.not_eq_true, Nat.not_le] at halive
      exact ⟨halive.1, rfl, halive.2.le, le_rfl⟩
  advance_error := by
    intro semaphore value failure h
    split at h
    · assumption
    · cases h
  listWait_later _ _ := .refl _
  listSignal_nil _ _ := rfl
  listSignal_cons _ _ _ _ := rfl
  listFail_failed := by
    intro entries _ semaphores entry hentry
    rw [if_pos (List.mem_map_of_mem hentry)]
  listFail_later := by
    intro entries _ semaphores semaphore
    dsimp only
    split
    · exact ⟨le_rfl, fun hfailed => by rw [← hfailed]⟩
    · exact ⟨le_rfl, fun _ => rfl⟩

/-- A queue whose device gives some answers; some semaphores have failed. -/
def Queue.answering (answers : List Answer) (failed : List ℕ) : Queue where
  device := { memory := fun _ => 0, answers := answers }
  semaphores := fun semaphore => { failed := decide (semaphore ∈ failed) }

end LightRocm.Iree
