import LightRocm.Graph.History
import LightRocm.Graph.Plan
import LightRocm.Lib.Turns

/-!
# The compiled resident scheduler

`run_compiled_resident` as a machine of workers. The workers of a stage share its
tasks out among themselves by their index and meet at a barrier after it. The
words of a generation are those of the barrier: `claimed_mask` counts the
arrivals, `completed_mask` the stages.
-/

namespace LightRocm.Graph.Compiled

/-- The stage a worker is in: its index and the phase that the worker has read. The number of
the phase is part of the history. -/
structure Place where
  number : ℕ
  phase : ℕ
  stage : ℕ
  deriving DecidableEq

/-- What a worker does next. -/
inductive Pc where
  /-- Worker 0 validates; the others wait for the status. -/
  | begin
  /-- Worker 0 publishes the result. -/
  | publish (status : Status)
  /-- Read the status: go on or return. -/
  | check
  | loadPhase
  /-- The loop over the tasks of the worker. -/
  | work (place : Place) (taskIndex : ℕ)
  | execute (place : Place) (taskIndex : ℕ) (action : Action)
  /-- Count the worker at the barrier. -/
  | arrive (place : Place)
  /-- The last worker clears the counter. -/
  | reset (place : Place)
  /-- The three parts of `finish_program`. -/
  | advance (place : Place)
  | decide (place : Place) (step : ℕ)
  | settle (place : Place) (verdict : Verdict)
  /-- The last worker opens the barrier. -/
  | release (place : Place)
  /-- Wait for the barrier. -/
  | spin (place : Place)
  /-- The worker has returned; it has read this status. -/
  | returned (status : Status)

variable (place : Place)

/-- The program of a place. -/
def Place.program : ℕ := phaseProgram place.phase

/-- The generation of a place. -/
def Place.generation : ℕ := phaseGeneration place.phase

/-- The stage of a place. -/
def Place.descriptor (args : ResidentArgs) : Stage :=
  args.stage place.program place.stage

/-- `active_workers`. -/
def Place.active (args : ResidentArgs) (workerCount : ℕ) : ℕ :=
  min workerCount (place.descriptor args).taskCount

/-- The index of a task of the stage in its program. -/
def Place.task (args : ResidentArgs) (taskIndex : ℕ) : ℕ :=
  (place.descriptor args).taskOffset + taskIndex - (args.program place.program).taskOffset

/-- It is the last stage of the program. -/
def Place.Last (args : ResidentArgs) : Prop :=
  place.stage + 1 = args.stageCount place.program

instance (place : Place) (args : ResidentArgs) : Decidable (place.Last args) :=
  inferInstanceAs (Decidable (_ = _))

/-- The next stage. -/
def Place.next : Place := { place with stage := place.stage + 1 }

/-- The barrier of a place. -/
def Place.barrier (place : Place) : ℕ × ℕ := (place.number, place.stage)

/-- The barrier after that of a place. -/
def Place.after (args : ResidentArgs) : ℕ × ℕ :=
  if place.Last args then (place.number + 1, 0) else (place.number, place.stage + 1)

/-- Worker `w` enters a phase. -/
def follow (w : ℕ) (d : Device) : Device := { d with trace := d.trace ++ [.followed w d.program] }

/-- Worker `w` is counted at a barrier. -/
def count (w : ℕ) (place : Place) (d : Device) : Device :=
  let barrier := d.phaseStates place.generation
  { d.setMasks place.generation { barrier with claimedMask := (barrier.claimedMask + 1) % 2 ^ 32 } with
    trace := d.trace ++ [.arrived w place.number place.stage] }

/-- The counter of a barrier is cleared. -/
def clear (d : Device) : Device :=
  d.setMasks place.generation { d.phaseStates place.generation with claimedMask := 0 }

/-- Worker `w` opens a barrier. -/
def opens (args : ResidentArgs) (w : ℕ) (place : Place) (d : Device) : Device :=
  { d.setMasks place.generation
      { d.phaseStates place.generation with completedMask := (place.stage + 1) % 2 ^ 32 } with
    gate := place.after args
    trace := d.trace ++ [.released w place.number place.stage] }

variable (workload : Workload) (args : ResidentArgs)

/-- One turn of worker `w`. -/
def turn (w : ℕ) (d : Device) : Pc → Device × Pc
  | .begin =>
    if w = 0 then
      (d, .publish (if validatePlan workload args d.state then .running else .invalidProgram))
    else (d, if d.state.status = .ready then .begin else .check)
  | .publish status => (d.publish status, .check)
  | .check => (d, if d.state.status = .running then .loadPhase else .returned d.state.status)
  | .loadPhase =>
    (follow w d, if 0 < args.stageCount d.program then .work ⟨d.left.length, d.state.phase, 0⟩ w
      else .check)
  | .work place taskIndex =>
    if w < place.active args d.state.workerCount ∧ taskIndex < (place.descriptor args).taskCount then
      (d.take w (place.task args taskIndex), .execute place taskIndex
        (workload.execute (args.task ((place.descriptor args).taskOffset + taskIndex)) d.state.step))
    else (d, .arrive place)
  | .execute place taskIndex action =>
    if action.isDone then
      (d.finish w (place.task args taskIndex),
        .work place (taskIndex + place.active args d.state.workerCount))
    else ({ d with memory := (action.step d.memory).2 },
      .execute place taskIndex (action.step d.memory).1)
  | .arrive place =>
    (count w place d,
      if ((d.phaseStates place.generation).claimedMask + 1) % 2 ^ 32 = d.state.workerCount then
        .reset place
      else .spin place)
  | .reset place =>
    (clear place d, if place.Last args then .advance place else .release place)
  | .advance place =>
    (d.advance (args.program place.program),
      .decide place (nextStep (args.program place.program) d.state))
  | .decide place step =>
    (d, .settle place (verdict args (args.program place.program) place.generation step d))
  | .settle place verdict => (d.settle w place.generation verdict, .release place)
  | .release place => (opens args w place d, .spin place)
  | .spin place =>
    (d, if (d.phaseStates place.generation).completedMask < place.stage + 1 then .spin place
      else if place.stage + 1 < args.stageCount place.program then .work place.next w
      else .check)
  | .returned status => (d, .returned status)

/-- One turn of worker `w` in the system. -/
def step (w : ℕ) (s : Sys Pc) : Sys Pc :=
  s.turn w (turn workload args w s.device (s.pcs w)).1 (turn workload args w s.device (s.pcs w)).2

/-- A launch: the host has written the state and cleared the mask words. -/
def init (state : State) (memory : Memory) : Sys Pc where
  device := { state := state, memory := memory }
  pcs := fun _ => .begin

/-! ## The order of events -/

/-- Who has arrived at the barrier of stage `i` of phase `k`. -/
def arrivals (trace : List Event) (k i : ℕ) : List ℕ :=
  trace.filterMap fun
    | .arrived w k' i' => if k' = k ∧ i' = i then some w else none
    | _ => none

/-- Who has opened the barrier of stage `i` of phase `k`. -/
def releases (trace : List Event) (k i : ℕ) : List ℕ :=
  trace.filterMap fun
    | .released w k' i' => if k' = k ∧ i' = i then some w else none
    | _ => none

/-- The programs of the phases that worker `w` has entered. -/
def follows (trace : List Event) (w : ℕ) : List ℕ :=
  trace.filterMap fun
    | .followed w' p => if w' = w then some p else none
    | _ => none

/-- The barriers before that of stage `i` of phase `k` are open. -/
def Passed (args : ResidentArgs) (entered : List ℕ) (trace : List Event) (k i : ℕ) : Prop :=
  (∀ i' < i, releases trace k i' ≠ []) ∧
    ∀ j p, j < k → entered[j]? = some p → ∀ i' < args.stageCount p, releases trace j i' ≠ []

/-- Stages and barriers come in their order. -/
structure StageOrder (args : ResidentArgs) (workers : ℕ) (entered : List ℕ) (trace : List Event) :
    Prop where
  /-- A task starts after all tasks of all earlier stages have finished. -/
  started : ∀ {before after : List Event} {w k t : ℕ},
    trace = before ++ .started w k t :: after → ∃ p i j, entered[k]? = some p ∧
      i < args.stageCount p ∧ j < (args.stage p i).taskCount ∧ t = args.stageStart p i + j ∧
      ∀ t' < args.stageStart p i, finishes before k t' ≠ []
  /-- A worker arrives at a barrier once, while it is closed and those before it are open. -/
  arrived : ∀ {before after : List Event} {w k i : ℕ},
    trace = before ++ .arrived w k i :: after → w < workers ∧ w ∉ arrivals before k i ∧
      releases before k i = [] ∧ Passed args entered before k i ∧
      ∃ p, entered[k]? = some p ∧ i < args.stageCount p
  /-- A barrier is opened once, after every worker has arrived. -/
  released : ∀ {before after : List Event} {w k i : ℕ},
    trace = before ++ .released w k i :: after → releases before k i = [] ∧
      ∀ w' < workers, w' ∈ arrivals before k i

end LightRocm.Graph.Compiled
