import LightRocm.Graph.History
import LightRocm.Lib.Turns

/-!
# The dynamic resident scheduler

`run_resident` as a machine of workers. A turn of a worker is one access to the
shared words, together with what the worker computes from it; while a worker
executes a task, a turn is one access of the task.
-/

namespace LightRocm.Graph.Dynamic

/-- What a worker has read of the phase and the masks. -/
structure Snapshot where
  phase : ℕ
  claimedMask : ℕ := 0
  claimedMaskHigh : ℕ := 0
  completedMask : ℕ := 0
  deriving DecidableEq

/-- The task that a worker has selected: `selected_generation`, `selected_program` and
`selected_task`. -/
structure Claim where
  generation : ℕ
  program : ℕ
  task : ℕ
  deriving DecidableEq

/-- What a worker does next. -/
inductive Pc where
  /-- Worker 0 validates; the others wait for the status. -/
  | begin
  /-- Worker 0 publishes the result. -/
  | publish (status : Status)
  /-- Read the status: go on or return. -/
  | check
  /-- Read `phase_before`. -/
  | loadPhase
  | loadClaimed (snapshot : Snapshot)
  | loadClaimedHigh (snapshot : Snapshot)
  | loadCompleted (snapshot : Snapshot)
  | loadCompletedHigh (snapshot : Snapshot)
  /-- Read `phase_after`. -/
  | reloadPhase (snapshot : Snapshot)
  /-- Look at the task that is `offset` after the worker's own index. -/
  | scan (snapshot : Snapshot) (offset : ℕ)
  | execute (claim : Claim) (action : Action)
  /-- Set the bit of the task in the completed masks. -/
  | complete (claim : Claim)
  /-- Count the task. -/
  | count (claim : Claim)
  /-- The three parts of the end of a phase. -/
  | advance (claim : Claim)
  | decide (claim : Claim) (step : ℕ)
  | settle (claim : Claim) (verdict : Verdict)
  /-- The worker has returned; it has read this status. -/
  | returned (status : Status)

/-- The program of a snapshot. -/
def Snapshot.program (snapshot : Snapshot) (args : ResidentArgs) : Program :=
  args.program (phaseProgram snapshot.phase)

/-- The generation of a snapshot. -/
def Snapshot.generation (snapshot : Snapshot) : ℕ := phaseGeneration snapshot.phase

/-- The claimed word of a snapshot that has the bit of a task. -/
def Snapshot.claimedWord (snapshot : Snapshot) (taskIndex : ℕ) : ℕ :=
  if taskIndex >>> 5 = 0 then snapshot.claimedMask else snapshot.claimedMaskHigh

/-- The snapshot shows the task as one that can be claimed. -/
def Snapshot.Offers (snapshot : Snapshot) (args : ResidentArgs) (taskIndex : ℕ) : Prop :=
  snapshot.claimedWord taskIndex &&& taskMask taskIndex = 0 ∧
  args.dependencies (snapshot.program args) taskIndex &&& snapshot.completedMask =
    args.dependencies (snapshot.program args) taskIndex

instance (snapshot : Snapshot) (args : ResidentArgs) (taskIndex : ℕ) :
    Decidable (snapshot.Offers args taskIndex) :=
  inferInstanceAs (Decidable (_ ∧ _))

/-- The task that worker `w` looks at. -/
def candidate (w offset taskCount : ℕ) : ℕ := (w + offset) % taskCount

variable (workload : Workload) (args : ResidentArgs)

/-- The worker tries to claim a task. -/
def claim (w : ℕ) (snapshot : Snapshot) (offset : ℕ) (d : Device) : Device × Pc :=
  let taskIndex := candidate w offset (snapshot.program args).taskCount
  let masks := d.phaseStates snapshot.generation
  let d' := d.setMasks snapshot.generation (masks.orClaimed taskIndex)
  if masks.claimedWord taskIndex &&& taskMask taskIndex = 0 then
    (d'.take w taskIndex, .execute ⟨snapshot.generation, phaseProgram snapshot.phase, taskIndex⟩
      (workload.execute (args.task ((snapshot.program args).taskOffset + taskIndex)) d.state.step))
  else (d', .scan snapshot (offset + 1))

/-- One turn of worker `w`. -/
def turn (w : ℕ) (d : Device) : Pc → Device × Pc
  | .begin =>
    if w = 0 then
      (d, .publish (if validatePrograms workload args d.state then .running else .invalidProgram))
    else (d, if d.state.status = .ready then .begin else .check)
  | .publish status => (d.publish status, .check)
  | .check => (d, if d.state.status = .running then .loadPhase else .returned d.state.status)
  | .loadPhase => (d, .loadClaimed { phase := d.state.phase })
  | .loadClaimed snapshot =>
    let snapshot' := { snapshot with
      claimedMask := (d.phaseStates snapshot.generation).claimedMask }
    (d, if 32 < (snapshot.program args).taskCount then .loadClaimedHigh snapshot'
      else .loadCompleted snapshot')
  | .loadClaimedHigh snapshot =>
    (d, .loadCompleted { snapshot with
      claimedMaskHigh := (d.phaseStates snapshot.generation).claimedMaskHigh })
  | .loadCompleted snapshot =>
    let snapshot' := { snapshot with
      completedMask := (d.phaseStates snapshot.generation).completedMask }
    (d, if 32 < (snapshot.program args).taskCount then .loadCompletedHigh snapshot'
      else .reloadPhase snapshot')
  | .loadCompletedHigh snapshot =>
    (d, .reloadPhase { snapshot with
      completedMask := snapshot.completedMask |||
        ((d.phaseStates snapshot.generation).completedMaskHigh <<< 32) })
  | .reloadPhase snapshot =>
    (d, if snapshot.phase = d.state.phase then .scan snapshot 0 else .check)
  | .scan snapshot offset =>
    if offset < (snapshot.program args).taskCount then
      if snapshot.Offers args (candidate w offset (snapshot.program args).taskCount) then
        claim workload args w snapshot offset d
      else (d, .scan snapshot (offset + 1))
    else (d, .check)
  | .execute claim action =>
    if action.isDone then (d.finish w claim.task, .complete claim)
    else ({ d with memory := (action.step d.memory).2 },
      .execute claim (action.step d.memory).1)
  | .complete claim =>
    ((d.setMasks claim.generation ((d.phaseStates claim.generation).orCompleted claim.task)).remark
      claim.task (.completed w), .count claim)
  | .count claim =>
    let masks := d.phaseStates claim.generation
    let completedCount := (masks.completedCount + 1) % 2 ^ 32
    ((d.setMasks claim.generation { masks with completedCount := completedCount }).remark
        claim.task (.counted w),
      if completedCount = (args.program claim.program).taskCount then .advance claim else .check)
  | .advance claim =>
    (d.advance (args.program claim.program),
      .decide claim (nextStep (args.program claim.program) d.state))
  | .decide claim step =>
    (d, .settle claim (verdict args (args.program claim.program) claim.generation step d))
  | .settle claim verdict => (d.settle w claim.generation verdict, .check)
  | .returned status => (d, .returned status)

/-- One turn of worker `w` in the system. -/
def step (w : ℕ) (s : Sys Pc) : Sys Pc :=
  s.turn w (turn workload args w s.device (s.pcs w)).1 (turn workload args w s.device (s.pcs w)).2

/-- A launch: the host has written the state and cleared the mask words. -/
def init (state : State) (memory : Memory) : Sys Pc where
  device := { state := state, memory := memory }
  pcs := fun _ => .begin

end LightRocm.Graph.Dynamic
