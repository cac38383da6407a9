import LightRocm.Lib.Program
import LightRocm.Lib.Run

/-!
# Cache-flush commands

`freeze_executable_image` and the clean-up of its operation, from `transport/kfd/code_cache.cpp`.
A command buffer and a signal are named in a packet of the queue, so that they have to stay until
the packet is done or the queue is gone. The surroundings (kernel, GPU, clock) answer each
question of the code, and what matters for the lifetime of the two is written to a record. A queue
stays where it is as long as an operation refers to it.
-/

namespace LightRocm.Transport.CodeCache

open Program

/-- `CodeCacheError`, for the failures. -/
inductive CodeCacheError where
  | invalidArgument
  | allocateState
  | allocateCommand
  | allocateSignal
  | queueFull
  | reservePacket
  | ringDoorbell
  | waitForCompletion
  | destroyQueue
  | releaseSignal
  | releaseCommand
  deriving DecidableEq

/-- A failure. -/
structure CodeCacheFailure where
  error : CodeCacheError
  message : String
  deriving DecidableEq

/-- `CodeCacheStatus`: nothing, or a failure. -/
abbrev CodeCacheStatus : Type := Option CodeCacheFailure

/-- `merge_cleanup_failure`. -/
def mergeCleanupFailure : (primary cleanup : CodeCacheStatus) → CodeCacheStatus
  | primary, none => primary
  | none, cleanup => cleanup
  | some primary, some cleanup =>
    some { primary with message := primary.message ++ "; cleanup failed: " ++ cleanup.message }

/-- `append_cleanup_failure`. -/
def appendCleanupFailure : (status additional : CodeCacheStatus) → CodeCacheStatus
  | status, none => status
  | none, additional => additional
  | some status, some additional =>
    some { status with
      message := status.message ++ "; additional cleanup failure: " ++ additional.message }

/-- What the packet names. -/
inductive Resource where
  | command
  | signal
  deriving DecidableEq

/-- What is written to the record. -/
inductive Event where
  /-- The operation has got a resource, or a part of one. -/
  | allocated (resource : Resource)
  /-- The packet can be seen by the GPU. -/
  | published
  /-- The completion signal has been read as zero. -/
  | sawZero
  /-- The queue of the driver has been destroyed. -/
  | queueDestroyed
  /-- The release of a resource has been tried. -/
  | tried (resource : Resource) (ok : Bool)
  /-- A resource is kept until the process ends. -/
  | preserved (resource : Resource)
  deriving DecidableEq

/-- An answer of the surroundings. -/
structure Answer where
  ok : Bool := true
  /-- The text of a failure. -/
  message : String := ""
  /-- A failed allocation has left something to own. -/
  partly : Bool := false
  /-- A failed release of the queue has destroyed the queue of the driver. -/
  destroyed : Bool := false

/-- The surroundings. -/
structure World where
  events : List Event := []
  /-- The queue has released everything. -/
  queueGone : Bool := false
  answers : List Answer := []

/-- Ask the surroundings. -/
def ask : Program World Answer := fun world =>
  (world.answers.headD {}, { world with answers := world.answers.tail })

/-- Write to the record. -/
def note (event : Event) : Program World Unit :=
  modify fun world => { world with events := world.events ++ [event] }

/-- The state of an operation, `CodeCacheOperationState`. -/
structure OperationState where
  command : Bool := false
  signal : Bool := false
  /-- `submitted_queue`, while `submitted`. -/
  submitted : Option ℕ := none
  deriving DecidableEq

variable (state : OperationState)

/-- Whether the operation owns a resource. -/
def OperationState.holds : Resource → Bool
  | .command => state.command
  | .signal => state.signal

/-- `owns_resources`. -/
def OperationState.ownsResources : Bool := state.command || state.signal

/-- `AqlQueue::release`: the text of a failure. -/
def releaseQueue : Program World (Option String) := do
  let world ← get
  if world.queueGone = true then return none
  else
    let answer ← ask
    if answer.ok = true then
      note .queueDestroyed
      modify fun world => { world with queueGone := true }
      return none
    else if answer.destroyed = true then
      note .queueDestroyed
      return some answer.message
    else return some answer.message

/-- `load_acquire` of the completion signal: whether it is zero. -/
def loadZero : Program World Bool := do
  let answer ← ask
  if answer.ok = true then
    note .sawZero
    return true
  else return false

/-- The release of a resource: the text of a failure. -/
def tryRelease (resource : Resource) : Program World (Option String) := do
  let answer ← ask
  note (.tried resource answer.ok)
  return if answer.ok = true then none else some answer.message

/-- The first half of `release_resources`. -/
def releaseSignal (state : OperationState) : Program World (CodeCacheStatus × OperationState) := do
  if state.signal = true then
    match ← tryRelease .signal with
    | some message => return (some ⟨.releaseSignal, message⟩, state)
    | none => return (none, { state with signal := false })
  else return (none, state)

/-- The second half of `release_resources`. -/
def releaseCommand (state : OperationState) : Program World (CodeCacheStatus × OperationState) := do
  if state.command = true then
    match ← tryRelease .command with
    | some message => return (some ⟨.releaseCommand, message⟩, state)
    | none => return (none, { state with command := false })
  else return (none, state)

/-- `release_resources`. -/
def releaseResources : Program World (CodeCacheStatus × OperationState) := do
  let (status, state) ← releaseSignal state
  let (additional, state) ← releaseCommand state
  return (appendCleanupFailure status additional, state)

/-- What `CodeCacheOperation::release` does for a submitted operation, before it releases. -/
def settle (queue : ℕ) (state : OperationState) : Program World (CodeCacheStatus × OperationState) := do
  match state.submitted with
  | none => return (none, state)
  | some submittedQueue =>
    if submittedQueue ≠ queue then
      return (some ⟨.invalidArgument,
        "cache operation must be released with its submitted AQL queue"⟩, state)
    else if state.signal = false then
      return (some ⟨.invalidArgument, "submitted cache operation has no completion signal"⟩, state)
    else
      let zero ← loadZero
      if zero = true then return (none, { state with submitted := none })
      else
        match ← releaseQueue with
        | some message => return (some ⟨.destroyQueue, message⟩, state)
        | none => return (none, { state with submitted := none })

/-- An operation; without a state it owns nothing. -/
abbrev Operation : Type := Option OperationState

/-- `CodeCacheOperation::release`. -/
def release (queue : ℕ) : Operation → Program World (CodeCacheStatus × Operation)
  | none => return (none, none)
  | some state => do
    match ← settle queue state with
    | (some failure, state) => return (some failure, some state)
    | (none, state) =>
      let (status, state) ← releaseResources state
      return (status, if state.ownsResources = true then some state else none)

/-- The state of an operation is never destroyed. -/
def preserve : Program World Unit := do
  if state.command = true then note (.preserved .command)
  if state.signal = true then note (.preserved .signal)

/-- `release_for_destruction`, for an operation that is not submitted. -/
def destroyReleased : Program World Unit := do
  let (status, state) ← releaseResources state
  if status = none then preserve state
  else
    let (_, state) ← releaseResources state
    preserve state

/-- `release_for_destruction`. -/
def destroy : Operation → Program World Unit
  | none => return ()
  | some state => do
    if state.submitted ≠ none ∧ state.signal = true then
      let zero ← loadZero
      if zero = true then destroyReleased { state with submitted := none }
      else preserve state
    else destroyReleased { state with submitted := none }

/-- `finish_before_submission`. -/
def finish (queue : ℕ) (status : CodeCacheStatus) (state : OperationState) :
    Program World (CodeCacheStatus × Operation) := do
  let (cleanup, operation) ← release queue (some state)
  return (mergeCleanupFailure status cleanup, operation)

/-- The end of `freeze_executable_image`, with the packet published. -/
def complete (queue : ℕ) (state : OperationState) : Program World (CodeCacheStatus × Operation) := do
  let doorbell ← ask
  if doorbell.ok = false then finish queue (some ⟨.ringDoorbell, doorbell.message⟩) state
  else
    let zero ← loadZero
    if zero = true then finish queue none state
    else finish queue (some ⟨.waitForCompletion,
      "cache-invalidation packet did not complete before the deadline"⟩) state

/-- `freeze_executable_image`, once it has a command buffer and a signal. -/
def submit (queue : ℕ) (state : OperationState) : Program World (CodeCacheStatus × Operation) := do
  let built ← ask
  if built.ok = false then
    finish queue (some ⟨.invalidArgument, "invalid gfx11 cache command: " ++ built.message⟩) state
  else
    let free ← ask
    if free.ok = false then
      finish queue (some ⟨.queueFull, "AQL queue has no free cache-invalidation slot"⟩) state
    else
      let reserved ← ask
      if reserved.ok = false then finish queue (some ⟨.reservePacket, reserved.message⟩) state
      else
        note .published
        complete queue { state with submitted := some queue }

/-- An allocation; a failed one may leave something to own. -/
def allocate (resource : Resource) : Program World (Answer × Bool) := do
  let answer ← ask
  if answer.ok = true ∨ answer.partly = true then
    note (.allocated resource)
    return (answer, true)
  else return (answer, false)

/-- `freeze_executable_image`. -/
def freeze (queue : ℕ) : Program World (CodeCacheStatus × Operation) := do
  let valid ← ask
  let world ← get
  if valid.ok = false ∨ world.queueGone = true then
    return (some ⟨.invalidArgument, "code-cache resources must be valid and belong to the " ++
      "same KFD session and GPU node"⟩, none)
  else
    let memory ← ask
    if memory.ok = false then
      return (some ⟨.allocateState, "failed to allocate code-cache operation state"⟩, none)
    else
      let (answer, owned) ← allocate .command
      if answer.ok = false then
        finish queue (some ⟨.allocateCommand, answer.message⟩) { command := owned }
      else
        let (answer, signal) ← allocate .signal
        if answer.ok = false then
          finish queue (some ⟨.allocateSignal, answer.message⟩) { command := owned, signal := signal }
        else submit queue { command := owned, signal := signal }

/-- What the caller does afterwards. -/
inductive Call where
  | release (queue : ℕ)
  | destroy
  /-- The caller releases the queue of the operation itself. -/
  | releaseQueue
  deriving DecidableEq

/-- One call. -/
def Call.run (operation : Operation) : Call → Program World Operation
  | .release queue => do
    let (_, operation) ← CodeCache.release queue operation
    return operation
  | .destroy => do
    CodeCache.destroy operation
    return none
  | .releaseQueue => do
    let _ ← CodeCache.releaseQueue
    return operation

/-- Some calls, one after the other. -/
def calls : List Call → Operation → Program World Operation
  | [], operation => return operation
  | call :: rest, operation => do
    let operation ← call.run operation
    calls rest operation

/-! ## Lifetimes -/

/-- The packet is done, or the queue is gone. -/
def Cleared (events : List Event) : Prop := .sawZero ∈ events ∨ .queueDestroyed ∈ events

/-- No resource is released twice, and none while a published packet may be read. -/
def Guarded (events : List Event) : Prop :=
  ∀ before resource ok after, events = before ++ .tried resource ok :: after →
    .tried resource true ∉ before ∧ (.published ∈ before → Cleared before)

/-- What holds between the steps of an operation. -/
structure Sound (queue : ℕ) (operation : Operation) (world : World) : Prop where
  guarded : Guarded world.events
  /-- A resource is released, kept until the process ends, or owned by the operation. -/
  held : ∀ resource, (operation.getD {}).holds resource = true ↔
    .allocated resource ∈ world.events ∧ .tried resource true ∉ world.events ∧
      .preserved resource ∉ world.events
  gone : world.queueGone = true → .queueDestroyed ∈ world.events
  /-- A packet that may be read is known to the operation. -/
  pending : ∀ state, operation = some state → .published ∈ world.events →
    Cleared world.events ∨ state.submitted = some queue
  signal : ∀ state, operation = some state → state.submitted ≠ none → state.signal = true

section Lifetime

variable {queue : ℕ} {operation : Operation} {state : OperationState} {world : World} {event : Event}

theorem Cleared.append {events : List Event} (h : Cleared events) (more : List Event) :
    Cleared (events ++ more) :=
  h.imp (List.mem_append_left more) (List.mem_append_left more)

/-- One more event. -/
theorem Guarded.append {events : List Event} (h : Guarded events)
    (hevent : ∀ resource ok, event = .tried resource ok →
      .tried resource true ∉ events ∧ (.published ∈ events → Cleared events)) :
    Guarded (events ++ [event]) := by
  intro before resource ok after heq
  rcases List.eq_nil_or_concat after with rfl | ⟨rest, last, rfl⟩
  · obtain ⟨rfl, hlast⟩ := List.append_inj' heq rfl
    exact hevent resource ok (List.cons.inj hlast).1
  · rw [List.concat_eq_append, ← List.cons_append, ← List.append_assoc] at heq
    obtain ⟨rfl, -⟩ := List.append_inj' heq rfl
    exact h before resource ok rest rfl

/-- An event that tells that the packet is done or that the queue is gone. -/
theorem Sound.clear (h : Sound queue operation world)
    (hevent : event = .sawZero ∨ event = .queueDestroyed) :
    Sound queue operation { world with events := world.events ++ [event] } := by
  have hother : ∀ e, e ≠ .sawZero → e ≠ .queueDestroyed →
      (e ∈ world.events ++ [event] ↔ e ∈ world.events) := by
    intro e hzero hgone
    rw [List.mem_append, List.mem_singleton]
    refine or_iff_left ?_
    rintro rfl
    exact hevent.elim hzero hgone
  refine ⟨h.guarded.append ?_, fun resource => ?_, fun hqueue => ?_, fun state hstate _ => ?_, h.signal⟩
  · rintro resource ok rfl
    rcases hevent with ⟨⟨⟩⟩ | ⟨⟨⟩⟩
  · rw [hother _ (by rintro ⟨⟩) (by rintro ⟨⟩), hother _ (by rintro ⟨⟩) (by rintro ⟨⟩),
      hother _ (by rintro ⟨⟩) (by rintro ⟨⟩)]
    exact h.held resource
  · exact List.mem_append_left _ (h.gone hqueue)
  · refine .inl (hevent.imp ?_ ?_)
    · rintro rfl
      exact List.mem_append_right _ (List.mem_singleton.mpr rfl)
    · rintro rfl
      exact List.mem_append_right _ (List.mem_singleton.mpr rfl)

/-- The operation knows that no packet is pending. -/
theorem Sound.settled (h : Sound queue (some state) world) (hclear : Cleared world.events) :
    Sound queue (some { state with submitted := none }) world where
  guarded := h.guarded
  held := fun resource => by
    rw [← h.held resource]
    cases resource <;> rfl
  gone := h.gone
  pending := fun _ _ _ => .inl hclear
  signal := by
    rintro _ ⟨⟩ hne
    exact absurd rfl hne

/-- A question changes nothing. -/
theorem ensures_ask (h : Sound queue operation world) :
    ask.Ensures world fun _ after => Sound queue operation after :=
  ⟨h.guarded, h.held, h.gone, h.pending, h.signal⟩

/-- The signal is read. -/
theorem ensures_loadZero (h : Sound queue operation world) :
    loadZero.Ensures world fun zero after =>
      Sound queue operation after ∧ (zero = true → Cleared after.events) := by
  refine Ensures.bind (ensures_ask h) fun answer asked hasked => ?_
  refine Ensures.ite (fun _ => ?_) fun _ => Ensures.pure ⟨hasked, fun hzero => Bool.noConfusion hzero⟩
  exact ⟨hasked.clear (.inl rfl), fun _ =>
    .inl (List.mem_append_right _ (List.mem_singleton.mpr rfl))⟩

/-- The queue is released. -/
theorem ensures_releaseQueue (h : Sound queue operation world) :
    releaseQueue.Ensures world fun failure after =>
      Sound queue operation after ∧ (failure = none → Cleared after.events) := by
  refine Ensures.seq (Ensures.get ?_)
  refine Ensures.ite (fun hgone => Ensures.pure ⟨h, fun _ => .inr (h.gone hgone)⟩) fun _ => ?_
  refine Ensures.bind (ensures_ask h) fun answer asked hasked => ?_
  have hlast : Event.queueDestroyed ∈ asked.events ++ [.queueDestroyed] :=
    List.mem_append_right _ (List.mem_singleton.mpr rfl)
  have hclear := hasked.clear (.inr rfl)
  refine Ensures.ite (fun _ => ?_) fun _ => Ensures.ite (fun _ => ?_) fun _ => Ensures.pure ?_
  · exact ⟨⟨hclear.guarded, hclear.held, fun _ => hlast, hclear.pending, hclear.signal⟩,
      fun _ => .inr hlast⟩
  · exact ⟨hclear, fun hnone => absurd hnone (by rintro ⟨⟩)⟩
  · exact ⟨hasked, fun hnone => absurd hnone (by rintro ⟨⟩)⟩

/-- Own a resource or give it up. -/
def OperationState.put (owned : Bool) : Resource → OperationState
  | .command => { state with command := owned }
  | .signal => { state with signal := owned }

theorem OperationState.holds_put (owned : Bool) (resource other : Resource) :
    (state.put owned resource).holds other = if other = resource then owned else state.holds other := by
  cases resource <;> cases other <;> rfl

theorem OperationState.submitted_put (owned : Bool) (resource : Resource) :
    (state.put owned resource).submitted = state.submitted := by
  cases resource <;> rfl

/-- The record of a release of a resource that is owned, when no packet is pending. -/
theorem Sound.tried {resource : Resource} (h : Sound queue (some state) world)
    (hholds : state.holds resource = true) (hsubmitted : state.submitted = none) (ok : Bool) :
    Sound queue (some (if ok = true then state.put false resource else state))
      { world with events := world.events ++ [.tried resource ok] } := by
  have hclear : .published ∈ world.events → Cleared world.events := fun hpublished =>
    (h.pending state rfl hpublished).resolve_right (by rw [hsubmitted]; rintro ⟨⟩)
  have hnone : (if ok = true then state.put false resource else state).submitted = none := by
    split
    · rw [state.submitted_put, hsubmitted]
    · exact hsubmitted
  refine ⟨h.guarded.append ?_, fun other => ?_, fun hgone => ?_, ?_, ?_⟩
  · rintro _ _ ⟨⟩
    exact ⟨((h.held resource).mp hholds).2.1, hclear⟩
  · have hother := h.held other
    simp only [Option.getD_some, List.mem_append, List.mem_singleton, Event.tried.injEq,
      reduceCtorEq, or_false] at hother ⊢
    split
    · rw [state.holds_put]
      grind
    · rw [hother]
      grind
  · exact List.mem_append_left _ (h.gone hgone)
  · rintro _ ⟨⟩ hpublished
    rw [List.mem_append, List.mem_singleton] at hpublished
    exact .inl ((hclear (hpublished.resolve_right (by rintro ⟨⟩))).append _)
  · rintro _ ⟨⟩ hne
    exact absurd hnone hne

/-- What is owned after a try to release a resource. -/
theorem ensures_tryRelease (resource : Resource) (h : Sound queue (some state) world)
    (hholds : state.holds resource = true) (hsubmitted : state.submitted = none) :
    (tryRelease resource).Ensures world fun failure after =>
      Sound queue (some (if failure = none then state.put false resource else state)) after := by
  refine Ensures.bind (ensures_ask h) fun answer asked hasked => ?_
  have htried := hasked.tried hholds hsubmitted answer.ok
  refine Ensures.seq (Ensures.modify (Ensures.pure ?_))
  cases hok : answer.ok with
  | true =>
    rw [hok] at htried
    exact htried
  | false =>
    rw [hok] at htried
    exact htried

/-- The signal is released. -/
theorem ensures_releaseSignal (h : Sound queue (some state) world) (hsubmitted : state.submitted = none) :
    (releaseSignal state).Ensures world fun result after =>
      Sound queue (some result.2) after ∧ result.2.submitted = none := by
  refine Ensures.ite (fun hsignal => ?_) fun _ => Ensures.pure ⟨h, hsubmitted⟩
  refine Ensures.bind (ensures_tryRelease .signal h hsignal hsubmitted)
    fun failure after hafter => ?_
  cases failure with
  | some message => exact ⟨hafter, hsubmitted⟩
  | none => exact ⟨hafter, hsubmitted⟩

/-- The command buffer is released. -/
theorem ensures_releaseCommand (h : Sound queue (some state) world) (hsubmitted : state.submitted = none) :
    (releaseCommand state).Ensures world fun result after =>
      Sound queue (some result.2) after ∧ result.2.submitted = none := by
  refine Ensures.ite (fun hcommand => ?_) fun _ => Ensures.pure ⟨h, hsubmitted⟩
  refine Ensures.bind (ensures_tryRelease .command h hcommand hsubmitted)
    fun failure after hafter => ?_
  cases failure with
  | some message => exact ⟨hafter, hsubmitted⟩
  | none => exact ⟨hafter, hsubmitted⟩

/-- Both are released. -/
theorem ensures_releaseResources (h : Sound queue (some state) world)
    (hsubmitted : state.submitted = none) :
    (releaseResources state).Ensures world fun result after =>
      Sound queue (some result.2) after ∧ result.2.submitted = none := by
  refine Ensures.bind (ensures_releaseSignal h hsubmitted) fun _ _ hsignal => ?_
  exact Ensures.bind (ensures_releaseCommand hsignal.1 hsignal.2) fun _ _ hcommand => hcommand

/-- A submitted operation is left pending, or its packet is done or its queue gone. -/
theorem ensures_settle (h : Sound queue (some state) world) (other : ℕ) :
    (settle other state).Ensures world fun result after =>
      Sound queue (some result.2) after ∧ (result.1 = none → result.2.submitted = none) := by
  have hfailure : ∀ (failure : CodeCacheFailure) (after : World), Sound queue (some state) after →
      Sound queue (some state) after ∧ (some failure = none → state.submitted = none) :=
    fun _ _ hafter => ⟨hafter, fun hnone => absurd hnone (by rintro ⟨⟩)⟩
  unfold settle
  cases hsubmitted : state.submitted with
  | none => exact ⟨h, fun _ => hsubmitted⟩
  | some submittedQueue =>
    refine Ensures.ite (fun _ => hfailure _ _ h) fun _ => Ensures.ite (fun _ => hfailure _ _ h) fun _ => ?_
    refine Ensures.bind (ensures_loadZero h) fun zero loaded hloaded => ?_
    refine Ensures.ite (fun hzero => ⟨hloaded.1.settled (hloaded.2 hzero), fun _ => rfl⟩) fun _ => ?_
    refine Ensures.bind (ensures_releaseQueue hloaded.1) fun failure released hreleased => ?_
    cases failure with
    | some message => exact hfailure _ _ hreleased.1
    | none => exact ⟨hreleased.1.settled (hreleased.2 rfl), fun _ => rfl⟩

/-- An operation that owns nothing. -/
theorem Sound.forget (h : Sound queue (some state) world) (hnone : state.ownsResources = false) :
    Sound queue none world := by
  refine ⟨h.guarded, fun resource => ?_, h.gone, by rintro _ ⟨⟩, by rintro _ ⟨⟩⟩
  rw [← h.held resource]
  obtain ⟨hcommand, hsignal⟩ := Bool.or_eq_false_iff.mp hnone
  cases resource
  · simp [OperationState.holds, hcommand]
  · simp [OperationState.holds, hsignal]

/-- A call of `release`, with any queue. -/
theorem ensures_release (h : Sound queue operation world) (other : ℕ) :
    (release other operation).Ensures world fun result after => Sound queue result.2 after := by
  cases operation with
  | none => exact h
  | some state =>
    refine Ensures.bind (ensures_settle h other) fun settled asked hsettled => ?_
    obtain ⟨_ | failure, settled⟩ := settled
    · refine Ensures.bind (ensures_releaseResources hsettled.1 (hsettled.2 rfl))
        fun released after hreleased => Ensures.pure ?_
      cases howns : released.2.ownsResources
      · exact hreleased.1.forget howns
      · exact hreleased.1
    · exact hsettled.1

/-- Events that are not releases. -/
theorem Guarded.preserved {events : List Event} (h : Guarded events) (kept : List Resource) :
    Guarded (events ++ kept.map .preserved) := by
  induction kept generalizing events with
  | nil => rwa [List.map_nil, List.append_nil]
  | cons resource rest ih =>
    rw [List.map_cons, List.append_cons]
    exact ih (h.append (by rintro _ _ ⟨⟩))

/-- Everything that is owned is kept. -/
theorem Sound.preserved (h : Sound queue (some state) world) (kept : List Resource)
    (hkept : ∀ resource, state.holds resource = true → resource ∈ kept) :
    Sound queue none { world with events := world.events ++ kept.map .preserved } := by
  refine ⟨h.guarded.preserved kept, fun resource => ?_,
    fun hgone => List.mem_append_left _ (h.gone hgone), by rintro _ ⟨⟩, by rintro _ ⟨⟩⟩
  have hheld := h.held resource
  have hnone : OperationState.holds {} resource = false := by cases resource <;> rfl
  simp only [Option.getD_none, hnone, Option.getD_some, List.mem_append, List.mem_map,
    Event.preserved.injEq, exists_eq_right, reduceCtorEq, and_false, exists_false,
    or_false] at hheld ⊢
  refine ⟨fun hfalse => absurd hfalse (by rintro ⟨⟩), fun ⟨hallocated, htried, hpreserved⟩ => ?_⟩
  exact absurd (.inr (hkept resource (hheld.mpr ⟨hallocated, htried, fun hold =>
    hpreserved (.inl hold)⟩))) hpreserved

/-- The state is never destroyed. -/
theorem ensures_preserve (h : Sound queue (some state) world) :
    (preserve state).Ensures world fun _ after => Sound queue none after := by
  have hkept := fun kept => h.preserved kept
  cases hcommand : state.command <;> cases hsignal : state.signal
  all_goals
    simp only [Ensures, preserve, hcommand, hsignal]
  · have hnone := hkept [] (by rintro ⟨⟩ <;> simp [OperationState.holds, *])
    rwa [List.map_nil, List.append_nil] at hnone
  · exact hkept [.signal] (by rintro ⟨⟩ <;> simp [OperationState.holds, *])
  · exact hkept [.command] (by rintro ⟨⟩ <;> simp [OperationState.holds, *])
  · have hboth := hkept [.command, .signal] (by rintro ⟨⟩ <;> simp)
    rw [List.map_cons, List.append_cons] at hboth
    exact hboth

/-- The destruction of an operation without a pending packet. -/
theorem ensures_destroyReleased (h : Sound queue (some state) world)
    (hsubmitted : state.submitted = none) :
    (destroyReleased state).Ensures world fun _ after => Sound queue none after := by
  refine Ensures.bind (ensures_releaseResources h hsubmitted) fun first _ hfirst => ?_
  refine Ensures.ite (fun _ => ensures_preserve hfirst.1) fun _ => ?_
  exact Ensures.bind (ensures_releaseResources hfirst.1 hfirst.2) fun _ _ hsecond =>
    ensures_preserve hsecond.1

/-- The destruction of an operation. -/
theorem ensures_destroy (h : Sound queue operation world) :
    (destroy operation).Ensures world fun _ after => Sound queue none after := by
  cases operation with
  | none => exact h
  | some state =>
    refine Ensures.ite (fun _ => ?_) fun hidle => ?_
    · refine Ensures.bind (ensures_loadZero h) fun zero loaded hloaded => ?_
      refine Ensures.ite (fun hzero => ?_) fun _ => ensures_preserve hloaded.1
      exact ensures_destroyReleased (hloaded.1.settled (hloaded.2 hzero)) rfl
    · have hsubmitted : state.submitted = none := by
        by_contra hne
        exact hidle ⟨hne, h.signal state rfl hne⟩
      have hsame : { state with submitted := none } = state := by rw [← hsubmitted]
      rw [hsame]
      exact ensures_destroyReleased h hsubmitted

/-- The end of a call that failed. -/
theorem ensures_finish (h : Sound queue (some state) world) (status : CodeCacheStatus) :
    (finish queue status state).Ensures world fun result after => Sound queue result.2 after :=
  Ensures.bind (ensures_release h queue) fun _ _ hafter => hafter

/-- The packet is published. -/
theorem Sound.published (h : Sound queue (some state) world) (hsignal : state.signal = true) :
    Sound queue (some { state with submitted := some queue })
      { world with events := world.events ++ [.published] } := by
  refine ⟨h.guarded.append (by rintro _ _ ⟨⟩), fun resource => ?_,
    fun hgone => List.mem_append_left _ (h.gone hgone), ?_, ?_⟩
  · have hheld := h.held resource
    have hsame : OperationState.holds { state with submitted := some queue } resource =
        state.holds resource := by cases resource <;> rfl
    simpa [hsame] using hheld
  · rintro _ ⟨⟩ _
    exact .inr rfl
  · rintro _ ⟨⟩ _
    exact hsignal

/-- The wait for a published packet. -/
theorem ensures_complete (h : Sound queue (some state) world) :
    (complete queue state).Ensures world fun result after => Sound queue result.2 after := by
  refine Ensures.bind (ensures_ask h) fun _ _ hrung => ?_
  refine Ensures.ite (fun _ => ensures_finish hrung _) fun _ => ?_
  refine Ensures.bind (ensures_loadZero hrung) fun _ _ hloaded => ?_
  exact Ensures.ite (fun _ => ensures_finish hloaded.1 _) fun _ => ensures_finish hloaded.1 _

/-- The packet, with both resources. -/
theorem ensures_submit (h : Sound queue (some state) world) (hsignal : state.signal = true) :
    (submit queue state).Ensures world fun result after => Sound queue result.2 after := by
  refine Ensures.bind (ensures_ask h) fun _ _ hbuilt => ?_
  refine Ensures.ite (fun _ => ensures_finish hbuilt _) fun _ => ?_
  refine Ensures.bind (ensures_ask hbuilt) fun _ _ hfree => ?_
  refine Ensures.ite (fun _ => ensures_finish hfree _) fun _ => ?_
  refine Ensures.bind (ensures_ask hfree) fun _ _ hreserved => ?_
  refine Ensures.ite (fun _ => ensures_finish hreserved _) fun _ => ?_
  exact Ensures.seq (Ensures.modify (ensures_complete (hreserved.published hsignal)))

/-- An allocation of a resource that was never there. -/
theorem ensures_allocate (resource : Resource) (h : Sound queue (some state) world)
    (hsubmitted : state.submitted = none) (hholds : state.holds resource = false)
    (hfresh : .tried resource true ∉ world.events ∧ .preserved resource ∉ world.events) :
    (allocate resource).Ensures world fun result after =>
      Sound queue (some (state.put result.2 resource)) after ∧
        (result.1.ok = true → result.2 = true) ∧ after.events ⊆ .allocated resource :: world.events := by
  have hasked : ask.Ensures world fun _ after =>
      Sound queue (some state) after ∧ after.events = world.events := ⟨ensures_ask h, rfl⟩
  refine Ensures.bind hasked fun answer asked ⟨hsound, hevents⟩ => ?_
  refine Ensures.ite (fun _ => ?_) fun hfailed => Ensures.pure ?_
  · refine Ensures.seq (Ensures.modify (Ensures.pure ⟨?_, fun _ => rfl, ?_⟩))
    · refine ⟨hsound.guarded.append (by rintro _ _ ⟨⟩), fun other => ?_,
        fun hgone => List.mem_append_left _ (hsound.gone hgone), ?_, ?_⟩
      · have hother := hsound.held other
        rw [← hevents] at hfresh
        simp only [Option.getD_some, List.mem_append, List.mem_singleton, Event.allocated.injEq,
          reduceCtorEq, or_false, state.holds_put] at hother ⊢
        grind
      · rintro _ ⟨⟩ hpublished
        rw [List.mem_append, List.mem_singleton] at hpublished
        have hclear := (hsound.pending state rfl (hpublished.resolve_right (by rintro ⟨⟩))).resolve_right
          (by rw [hsubmitted]; rintro ⟨⟩)
        exact .inl (hclear.append _)
      · rintro _ ⟨⟩ hne
        rw [state.submitted_put] at hne
        exact absurd hsubmitted hne
    · rw [hevents]
      exact List.append_subset.mpr ⟨List.subset_cons_self _ _,
        List.cons_subset.mpr ⟨List.mem_cons_self, List.nil_subset _⟩⟩
  · have hsame : state.put false resource = state := by
      cases resource <;> cases state <;> cases hholds <;> rfl
    exact ⟨hsame.symm ▸ hsound, fun hok => absurd (.inl hok) hfailed,
      hevents ▸ List.subset_cons_self _ _⟩

/-- `freeze_executable_image`, from a record that tells at most that the queue is gone. -/
theorem ensures_freeze (h : Sound queue none world) (hfresh : world.events ⊆ [.queueDestroyed]) :
    (freeze queue).Ensures world fun result after => Sound queue result.2 after := by
  have hasked : ∀ {before}, Sound queue none before → before.events = world.events →
      ask.Ensures before fun _ after => Sound queue none after ∧ after.events = world.events :=
    fun hsound hevents => ⟨ensures_ask hsound, hevents⟩
  refine Ensures.bind (hasked h rfl) fun _ valid hvalid => Ensures.seq (Ensures.get ?_)
  refine Ensures.ite (fun _ => Ensures.pure hvalid.1) fun _ => ?_
  refine Ensures.bind (hasked hvalid.1 hvalid.2) fun _ memory hmemory => ?_
  refine Ensures.ite (fun _ => Ensures.pure hmemory.1) fun _ => ?_
  have hempty : Sound queue (some {}) memory := by
    refine ⟨hmemory.1.guarded, hmemory.1.held, hmemory.1.gone, ?_, ?_⟩
    · intro _ _ hpublished
      rw [hmemory.2] at hpublished
      exact absurd (hfresh hpublished) (by decide)
    · rintro _ ⟨⟩ hne
      exact absurd rfl hne
  rw [← hmemory.2] at hfresh
  refine Ensures.bind (ensures_allocate .command hempty rfl rfl
    ⟨fun hin => absurd (hfresh hin) (by decide), fun hin => absurd (hfresh hin) (by decide)⟩)
    fun command allocated ⟨hcommand, _, hsub⟩ => ?_
  have hmore : allocated.events ⊆ [.allocated .command, .queueDestroyed] :=
    List.Subset.trans hsub (List.cons_subset_cons _ hfresh)
  refine Ensures.ite (fun _ => ensures_finish hcommand _) fun _ => ?_
  refine Ensures.bind (ensures_allocate .signal hcommand rfl rfl
    ⟨fun hin => absurd (hmore hin) (by decide), fun hin => absurd (hmore hin) (by decide)⟩)
    fun signal _ ⟨hsignal, howned, _⟩ => ?_
  refine Ensures.ite (fun _ => ensures_finish hsignal _) fun hok => ?_
  exact ensures_submit hsignal (howned (Bool.eq_true_of_not_eq_false hok))

/-- One call. -/
theorem ensures_call (h : Sound queue operation world) (call : Call) :
    (call.run operation).Ensures world fun operation after => Sound queue operation after := by
  cases call with
  | release other => exact Ensures.bind (ensures_release h other) fun _ _ hafter => hafter
  | destroy => exact Ensures.bind (ensures_destroy h) fun _ _ hafter => hafter
  | releaseQueue => exact Ensures.bind (ensures_releaseQueue h) fun _ _ hafter => hafter.1

/-- Any sequence of calls. -/
theorem ensures_calls (h : Sound queue operation world) (later : List Call) :
    (calls later operation).Ensures world fun operation after => Sound queue operation after := by
  induction later generalizing operation world with
  | nil => exact h
  | cons call rest ih => exact Ensures.bind (ensures_call h call) fun _ _ hafter => ih hafter

end Lifetime

/-- A queue, and answers of the surroundings. -/
def start (queueGone : Bool) (answers : List Answer) : World :=
  { events := if queueGone = true then [.queueDestroyed] else []
    queueGone := queueGone
    answers := answers }

theorem sound_start (queue : ℕ) (queueGone : Bool) (answers : List Answer) :
    Sound queue none (start queueGone answers) := by
  refine ⟨fun before resource ok after heq => ?_, fun resource => ?_, fun hgone => ?_,
    by rintro _ ⟨⟩, by rintro _ ⟨⟩⟩
  · have hin : Event.tried resource ok ∈ (start queueGone answers).events := by
      rw [heq]
      exact List.mem_append_right _ List.mem_cons_self
    cases queueGone <;> simp [start] at hin
  · cases queueGone <;> cases resource <;> simp [start, OperationState.holds]
  · obtain rfl : queueGone = true := hgone
    exact List.mem_singleton.mpr rfl

/-- However the surroundings answer, in `freeze_executable_image` and in all later calls for its
operation: no resource is released twice, and a resource that a published packet names only after
the signal was read as zero or the queue was destroyed. A resource that was not released is owned by
the operation or, once that is destroyed, kept until the process ends. -/
theorem packet_resources_outlive_packet (queue : ℕ) (queueGone : Bool) (answers : List Answer)
    (later : List Call) :
    (freeze queue >>= fun result => calls later result.2).Ensures (start queueGone answers)
      fun operation world => Guarded world.events ∧ ∀ resource,
        .allocated resource ∈ world.events → .tried resource true ∉ world.events →
          (operation.getD {}).holds resource = true ∨ .preserved resource ∈ world.events := by
  have hfresh : (start queueGone answers).events ⊆ [.queueDestroyed] := by
    cases queueGone <;> simp [start]
  refine Ensures.bind (ensures_freeze (sound_start queue queueGone answers) hfresh)
    fun result frozen hfrozen => ?_
  refine (ensures_calls hfrozen later).mono fun operation world hsound =>
    ⟨hsound.guarded, fun resource hallocated htried => ?_⟩
  by_cases hpreserved : .preserved resource ∈ world.events
  · exact .inr hpreserved
  · exact .inl ((hsound.held resource).mpr ⟨hallocated, htried, hpreserved⟩)

end LightRocm.Transport.CodeCache
