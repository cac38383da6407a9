import LightRocm.Graph.Validation

/-!
# The device memory of a resident launch

What the workers share: the control state, one `MaskState` for each generation
and the memory of the tasks. Beside them stands the history of the launch, which
no worker reads: the programs of the phases that are over, who has which task of
the current phase, the barrier that is closed, and the events in their order.

The history is what the schedulers are judged by: `PhaseOrder` says when an event
may happen, `ExactlyOnce` what has happened of a phase that is over.
-/

namespace LightRocm.Graph

/-- Where a task of the current phase stands; `w` is the worker who took it. -/
inductive Mark where
  | unclaimed
  | executing (w : ℕ)
  | executed (w : ℕ)
  | completed (w : ℕ)
  | counted (w : ℕ)
  deriving DecidableEq

/-- The worker who has started the task. -/
def Mark.starter : Mark → List ℕ
  | unclaimed => []
  | executing w | executed w | completed w | counted w => [w]

/-- The worker who has executed the task. -/
def Mark.finisher : Mark → List ℕ
  | unclaimed | executing _ => []
  | executed w | completed w | counted w => [w]

/-- What happens in a launch. Phases are numbered in the order in which they are entered. -/
inductive Event where
  /-- Worker `w` begins to execute task `t` in phase `k`. -/
  | started (w k t : ℕ)
  /-- Worker `w` has executed task `t` in phase `k`. -/
  | finished (w k t : ℕ)
  /-- Worker `w` ends phase `k`. -/
  | advanced (w k : ℕ)
  /-- Worker `w` arrives at the barrier of stage `i` of phase `k`. -/
  | arrived (w k i : ℕ)
  /-- Worker `w` opens the barrier of stage `i` of phase `k`. -/
  | released (w k i : ℕ)
  /-- Worker `w` enters a phase of program `p`. -/
  | followed (w p : ℕ)
  deriving DecidableEq

/-- The memory that the workers share, and the history of the launch. -/
structure Device where
  /-- The control state. -/
  state : State
  /-- The mask words of the generations. -/
  phaseStates : ℕ → MaskState := fun _ => {}
  /-- The memory of the tasks. -/
  memory : Memory
  /-- The programs of the phases that have been left for another one. -/
  left : List ℕ := []
  /-- The tasks of the current phase. -/
  board : ℕ → Mark := fun _ => .unclaimed
  /-- The barrier that is closed: the number of its phase and its stage. -/
  gate : ℕ × ℕ := (0, 0)
  /-- The events. -/
  trace : List Event := []

/-- The workers and the memory that they share. -/
structure Sys (Pc : Type) where
  /-- The shared memory. -/
  device : Device
  /-- What each worker does next. -/
  pcs : ℕ → Pc

/-- Worker `w` has made a step. -/
def Sys.turn {Pc : Type} (s : Sys Pc) (w : ℕ) (d : Device) (pc : Pc) : Sys Pc where
  device := d
  pcs := Function.update s.pcs w pc

@[simp]
theorem Sys.turn_pcs_self {Pc : Type} (s : Sys Pc) (w : ℕ) (d : Device) (pc : Pc) :
    (s.turn w d pc).pcs w = pc :=
  Function.update_self ..

/-- The program of the current phase. -/
def Device.program (d : Device) : ℕ := phaseProgram d.state.phase

/-- Number of tasks of the current phase. -/
def Device.taskCount (args : ResidentArgs) (d : Device) : ℕ := (args.program d.program).taskCount

/-- The mask words of the current generation. -/
def Device.masks (d : Device) : MaskState := d.phaseStates (phaseGeneration d.state.phase)

/-- The generation in which a launch begins. -/
def State.base (launch : State) : ℕ := phaseGeneration launch.phase

/-- The programs of the phases that have been entered. -/
def Device.entered (d : Device) : List ℕ := d.left ++ [d.program]

/-- Worker `w` takes task `t` of the current phase. -/
def Device.take (w t : ℕ) (d : Device) : Device :=
  { d with board := Function.update d.board t (.executing w)
           trace := d.trace ++ [.started w d.left.length t] }

/-- Worker `w` has executed task `t` of the current phase. -/
def Device.finish (w t : ℕ) (d : Device) : Device :=
  { d with board := Function.update d.board t (.executed w)
           trace := d.trace ++ [.finished w d.left.length t] }

/-- Task `t` has a new mark. -/
def Device.remark (t : ℕ) (mark : Mark) (d : Device) : Device :=
  { d with board := Function.update d.board t mark }

/-- A new `MaskState` for a generation. -/
def Device.setMasks (generation : ℕ) (masks : MaskState) (d : Device) : Device :=
  { d with phaseStates := Function.update d.phaseStates generation masks }

/-- Worker 0 publishes the result of the validation. -/
def Device.publish (status : Status) (d : Device) : Device :=
  { d with state := { d.state with
      errorCode := if status = .invalidProgram then 1 else d.state.errorCode
      status := status } }

/-! ## The end of a phase

The completing worker of either scheduler runs these three parts one after the
other: it advances the step, it looks at the predicate and the bounds, and it
publishes the outcome. -/

/-- How the run goes on after a phase. -/
inductive Verdict where
  | complete
  | maxSteps
  | exhausted
  | next (programIndex : ℕ)
  deriving DecidableEq

/-- `next_step`. -/
def nextStep (program : Program) (state : State) : ℕ :=
  (state.step + if program.has kProgramAdvancesStep then 1 else 0) % 2 ^ 32

/-- The step and the count of tasks after a phase. -/
def Device.advance (program : Program) (d : Device) : Device :=
  { d with state := { d.state with
      step := nextStep program d.state
      executedTasks := (d.state.executedTasks + program.taskCount) % 2 ^ 64 } }

/-- The predicate of the loop. -/
def predicate (program : Program) (d : Device) : Bool :=
  program.has kProgramEvaluatesPredicate && d.state.stopValue ≤ d.memory .predicateValue

/-- The successor of a program. -/
def successor (program : Program) (d : Device) : ℕ :=
  if program.has kProgramBranchesOnState && d.memory .branchValue ≠ 0 then program.branchProgram
  else program.nextProgram

/-- How the run goes on. -/
def verdict (args : ResidentArgs) (program : Program) (generation step : ℕ) (d : Device) :
    Verdict :=
  if predicate program d then .complete
  else if d.state.maxSteps ≤ step then .maxSteps
  else if args.phaseStateCount ≤ generation + 1 then .exhausted
  else .next (successor program d)

/-- The run goes on only in a generation that the host has provided. -/
theorem verdict_eq_next {args : ResidentArgs} {d : Device} {program : Program}
    {generation step p : ℕ}
    (h : verdict args program generation step d = .next p) :
    generation + 1 < args.phaseStateCount ∧ p = successor program d := by
  unfold verdict at h
  split at h
  · cases h
  · split at h
    · cases h
    · split at h
      · cases h
      · exact ⟨by omega, (Verdict.next.inj h).symm⟩

/-- The successor of an accepted program is in the table. -/
theorem successor_lt {args : ResidentArgs} {d : Device} {program : Program}
    (h : ValidProgram args program) : successor program d < args.programs.length := by
  unfold successor
  split
  · rename_i hbranch
    exact h.branchProgram_lt (Bool.and_eq_true_iff.mp hbranch).1
  · exact h.nextProgram_lt

/-- Worker `w` ends the last phase. -/
def Device.stop (w : ℕ) (status : Status) (errorCode : ℕ) (d : Device) : Device :=
  { d with state := { d.state with errorCode := errorCode, status := status }
           trace := d.trace ++ [.advanced w d.left.length] }

/-- Worker `w` ends a phase and publishes the next one. -/
def Device.enter (w phase : ℕ) (d : Device) : Device :=
  { d with state := { d.state with phase := phase }
           left := d.left ++ [d.program]
           board := fun _ => .unclaimed
           trace := d.trace ++ [.advanced w d.left.length] }

/-- Worker `w` publishes how the run goes on. -/
def Device.settle (w generation : ℕ) (verdict : Verdict) (d : Device) : Device :=
  match verdict with
  | .complete => d.stop w .complete d.state.errorCode
  | .maxSteps => d.stop w .maxSteps d.state.errorCode
  | .exhausted => d.stop w .invalidProgram 2
  | .next programIndex => d.enter w (makePhase (generation + 1) programIndex)

/-! ## The order of events -/

/-- Who has started task `t` of phase `k`. -/
def starts (trace : List Event) (k t : ℕ) : List ℕ :=
  trace.filterMap fun
    | .started w k' t' => if k' = k ∧ t' = t then some w else none
    | _ => none

/-- Who has finished task `t` of phase `k`. -/
def finishes (trace : List Event) (k t : ℕ) : List ℕ :=
  trace.filterMap fun
    | .finished w k' t' => if k' = k ∧ t' = t then some w else none
    | _ => none

/-- Who has ended phase `k`. -/
def advances (trace : List Event) (k : ℕ) : List ℕ :=
  trace.filterMap fun
    | .advanced w k' => if k' = k then some w else none
    | _ => none

/-- The events stand in an order in which they may happen. -/
structure PhaseOrder (args : ResidentArgs) (entered : List ℕ) (trace : List Event) : Prop where
  /-- A task of a phase starts once, after the tasks it depends on have finished in this
  phase and all tasks of all earlier phases have finished in theirs. -/
  started : ∀ {before after : List Event} {w k t : ℕ},
    trace = before ++ .started w k t :: after → starts before k t = [] ∧
      (∃ p, entered[k]? = some p ∧ t < (args.program p).taskCount ∧
        ∀ d, args.Depends (args.program p) t d → finishes before k d ≠ []) ∧
      ∀ j p, j < k → entered[j]? = some p → ∀ t', t' < (args.program p).taskCount →
        finishes before j t' ≠ []
  /-- A task is finished once, by the worker who has started it. -/
  finished : ∀ {before after : List Event} {w k t : ℕ},
    trace = before ++ .finished w k t :: after → starts before k t = [w] ∧
      finishes before k t = []
  /-- A phase is ended once, after all its tasks have finished. -/
  advanced : ∀ {before after : List Event} {w k : ℕ},
    trace = before ++ .advanced w k :: after → advances before k = [] ∧
      ∃ p, entered[k]? = some p ∧ ∀ t, t < (args.program p).taskCount → finishes before k t ≠ []

/-- The status of a launch that has come to its end. -/
def Status.Ended (status : Status) : Prop := status ≠ .ready ∧ status ≠ .running

instance (status : Status) : Decidable status.Ended := inferInstanceAs (Decidable (_ ∧ _))

/-- Phase `k` is over. -/
def Device.Over (d : Device) (k : ℕ) : Prop :=
  k < d.left.length ∨ k = d.left.length ∧ d.state.status.Ended

/-- The tasks of the phases have been executed in order, each of them once. -/
structure ExactlyOnce (args : ResidentArgs) (d : Device) : Prop where
  order : PhaseOrder args d.entered d.trace
  /-- One worker has executed a task of a phase that is over. -/
  once : ∀ k p, d.Over k → d.entered[k]? = some p → ∀ t, t < (args.program p).taskCount →
    ∃ w, starts d.trace k t = [w] ∧ finishes d.trace k t = [w]
  /-- One worker has ended a phase that is over. -/
  ended : ∀ k, d.Over k → ∃ w, advances d.trace k = [w]
  /-- Nobody has ended another phase. -/
  still : ∀ k, ¬d.Over k → advances d.trace k = []

end LightRocm.Graph
