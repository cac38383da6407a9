import Mathlib.Data.List.TakeWhile
import LightRocm.Status

/-!
# Reaping of dispatches on direct KFD queues

`reap_direct_kfd_dispatches_locked` retires the dependency barriers whose dispatch has
completed and takes the completed dispatches at the front of the queue back into the
pool. Dispatches and events are named by their addresses. The GPU changes signals while
the loops run, so every load has a value of its own; what a failing reap leaves is stated
for signals that do not change while it runs.
-/

namespace LightRocm.DirectKfd

/-- `PendingDispatch`, without the kernel arguments, which reaping leaves alone. -/
structure PendingDispatch where
  completionSignal : ℕ
  completionEvent : Option ℕ := none

/-- The part of `lr_event_t` that reaping uses. -/
structure Event where
  signal : ℕ
  dependencyCount : ℕ := 0
  dependencyQueues : List (ℕ × ℕ) := []

/-- `PendingBarrier`. -/
structure PendingBarrier where
  retirementDispatch : ℕ
  dependencies : List ℕ

/-- The part of `lr_queue_t` that reaping uses, with what its pointers lead to. The list of
pending dispatches starts at `pending_dispatch_head`. -/
structure Queue where
  self : ℕ := 0
  dispatches : ℕ → PendingDispatch
  events : ℕ → Event
  pendingDispatches : List ℕ := []
  pendingBarriers : List PendingBarrier := []
  availableDispatches : List ℕ := []
  /-- The capacity of the vector `available_dispatches`. -/
  availableCapacity : ℕ := 0

/-- `active_completion_signal`. -/
def Queue.activeCompletionSignal (queue : Queue) (dispatch : ℕ) : ℕ :=
  match (queue.dispatches dispatch).completionEvent with
  | some event => (queue.events event).signal
  | none => (queue.dispatches dispatch).completionSignal

/-- Move the last entry of a vector over another one and drop it at the end. -/
def removeSwap {α : Type} (entries : List α) (index : ℕ) : List α :=
  match entries.getLast? with
  | some last => (entries.set index last).dropLast
  | none => []

/-- `release_direct_kfd_event_dependency_locked`. -/
def Event.releaseDependency (queue : ℕ) (event : Event) : Event :=
  let index := event.dependencyQueues.findIdx (·.1 = queue)
  { event with
    dependencyCount := event.dependencyCount - 1
    dependencyQueues :=
      match event.dependencyQueues[index]? with
      | some (_, count) =>
        if count = 1 then removeSwap event.dependencyQueues index
        else event.dependencyQueues.set index (queue, count - 1)
      | none => event.dependencyQueues }

/-- Release the dependencies of a barrier that has retired. -/
def Queue.releaseDependencies (queue : Queue) (dependencies : List ℕ) : Queue :=
  { queue with
    events := dependencies.foldl
      (fun events event =>
        Function.update events event ((events event).releaseDependency queue.self))
      queue.events }

/-- `reap_completed_direct_kfd_barriers_locked`. The loop visits every barrier once; `loads` gives
the value of a signal at each load, and `remaining` counts the barriers still to visit. -/
def Queue.reapCompletedBarriers (loads : ℕ → ℕ → ℤ) (moment index : ℕ) :
    (remaining : ℕ) → Queue → Queue
  | 0, queue => queue
  | remaining + 1, queue =>
    match queue.pendingBarriers[index]? with
    | none => queue
    | some barrier =>
      if loads moment (queue.activeCompletionSignal barrier.retirementDispatch) ≠ 0 then
        queue.reapCompletedBarriers loads (moment + 1) (index + 1) remaining
      else
        Queue.reapCompletedBarriers loads (moment + 1) index remaining
          { queue.releaseDependencies barrier.dependencies with
            pendingBarriers := removeSwap queue.pendingBarriers index }

/-- `dispatch.completion_event = nullptr`. -/
def Queue.clearCompletionEvent (queue : Queue) (dispatch : ℕ) : Queue :=
  { queue with
    dispatches := Function.update queue.dispatches dispatch
      { queue.dispatches dispatch with completionEvent := none } }

/-- The loop that counts the completed dispatches at the front of the queue. -/
def Queue.countCompleted (loads : ℕ → ℕ → ℤ) : ℕ → List ℕ → Queue → ℕ × Queue
  | _, [], queue => (0, queue)
  | moment, dispatch :: rest, queue =>
    if loads moment (queue.activeCompletionSignal dispatch) ≠ 0 then (0, queue)
    else if queue.pendingBarriers.any (·.retirementDispatch = dispatch) then (0, queue)
    else
      let counted := (queue.clearCompletionEvent dispatch).countCompleted loads (moment + 1) rest
      (counted.1 + 1, counted.2)

variable (loads : ℕ → ℕ → ℤ)

/-- Both loops of a reap: how many dispatches have completed, and the queue after them. -/
def Queue.countReaped (queue : Queue) : ℕ × Queue :=
  let barriers := queue.pendingBarriers.length
  (queue.reapCompletedBarriers loads 0 0 barriers).countCompleted loads barriers
    queue.pendingDispatches

/-- `reap_direct_kfd_dispatches_locked`; `allocated` says whether host memory can be had. -/
def reapDirectKfdDispatches (allocated : Bool) (queue : Queue) :
    Status × Queue :=
  let (completedCount, queue) := queue.countReaped loads
  let required := queue.availableDispatches.length + completedCount
  if completedCount = 0 then (.success, queue)
  else if queue.availableCapacity < required && !allocated then (.runtime, queue)
  else (.success, { queue with
    availableDispatches :=
      queue.availableDispatches ++ queue.pendingDispatches.take completedCount
    pendingDispatches := queue.pendingDispatches.drop completedCount
    availableCapacity := max queue.availableCapacity required })

/-- A launch of a kernel without arguments, as far as reaping sees it: `available_dispatches` gets
room for one entry more, a queue without an available dispatch is reaped, and then an available
dispatch or the new one `fresh` is pending. -/
def Queue.launch (fresh signal : ℕ) (event : Option ℕ) (queue : Queue) :
    Queue :=
  let queue := { queue with
    availableCapacity := max queue.availableCapacity (queue.availableDispatches.length + 1) }
  let queue := if queue.availableDispatches = [] then
    (reapDirectKfdDispatches loads true queue).2 else queue
  match queue.availableDispatches.getLast? with
  | some reused =>
    { queue with
      dispatches := Function.update queue.dispatches reused
        { queue.dispatches reused with completionEvent := event }
      pendingDispatches := queue.pendingDispatches ++ [reused]
      availableDispatches := queue.availableDispatches.dropLast }
  | none =>
    { queue with
      dispatches := Function.update queue.dispatches fresh ⟨signal, event⟩
      pendingDispatches := queue.pendingDispatches ++ [fresh] }

/-- `after` is `queue` without some of its barriers. -/
structure Queue.Retired (queue after : Queue) : Prop where
  dispatches : after.dispatches = queue.dispatches
  signals : ∀ event, (after.events event).signal = (queue.events event).signal
  pending : after.pendingDispatches = queue.pendingDispatches
  barriers : after.pendingBarriers ⊆ queue.pendingBarriers

variable {queue after : Queue}

/-- A dispatch waits for the same signal while it and the signals of the events are the same. -/
theorem Queue.activeCompletionSignal_congr {dispatch : ℕ}
    (hdispatch : after.dispatches dispatch = queue.dispatches dispatch)
    (hsignals : ∀ event, (after.events event).signal = (queue.events event).signal) :
    after.activeCompletionSignal dispatch = queue.activeCompletionSignal dispatch := by
  unfold Queue.activeCompletionSignal
  rw [hdispatch]
  cases (queue.dispatches dispatch).completionEvent with
  | none => rfl
  | some event => exact hsignals event

theorem Queue.Retired.activeCompletionSignal (h : queue.Retired after) (dispatch : ℕ) :
    after.activeCompletionSignal dispatch = queue.activeCompletionSignal dispatch :=
  Queue.activeCompletionSignal_congr (congrFun h.dispatches dispatch) h.signals

/-- A queue that has launched one new dispatch after the other, with these events, none completed
yet. A dispatch's own signal has its number, and that of the event `n` is `n + 8`. -/
def launched (events : List (Option ℕ)) : Queue :=
  events.zipIdx.foldl (fun queue (event, index) => queue.launch (fun _ _ => 1) index index event)
    { dispatches := fun _ => ⟨0, none⟩, events := fun event => { signal := event + 8 } }

end LightRocm.DirectKfd
