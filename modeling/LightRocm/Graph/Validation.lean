import LightRocm.Graph.Abi
import LightRocm.Lib.TaskGraph

/-!
# Validation on the device

`validate_programs`, which worker 0 runs before the other workers may go on, and
what an accepted graph is: the tables are in range, and no task depends on itself
through others.
-/

namespace LightRocm.Graph

/-- A place that tasks can read and write: two fields of the state, or a word of
the workload's own memory. -/
inductive Loc where
  | predicateValue
  | branchValue
  | word (address : ℕ)
  deriving DecidableEq

/-- The memory of the tasks. -/
abbrev Memory := Loc → ℕ

/-- What a task does. -/
abbrev Action := TaskGraph.Action Loc ℕ

/-- What the scheduler is specialised with. A task may depend on `state->step`. -/
structure Workload where
  /-- `Workload::valid_context`. -/
  validContext : State → Bool
  /-- `Workload::valid_task`. -/
  validTask : Task → Bool
  /-- `Workload::execute`. -/
  execute : Task → ℕ → Action

/-- One pass of the topological walk. -/
def reachablePass (dependencies : ℕ → ℕ) (taskCount reachableMask : ℕ) : ℕ :=
  (List.range taskCount).foldl (fun reachableMask taskIndex =>
    if reachableMask &&& (1 <<< taskIndex) = 0 ∧
        dependencies taskIndex &&& reachableMask = dependencies taskIndex then
      reachableMask ||| (1 <<< taskIndex)
    else reachableMask) reachableMask

/-- The topological walk: as many passes as there are tasks. -/
def reachableTasks (dependencies : ℕ → ℕ) (taskCount : ℕ) : ℕ :=
  (List.range taskCount).foldl (fun reachableMask _ =>
    reachablePass dependencies taskCount reachableMask) 0

/-- The dependencies of task `taskIndex` of a program. -/
def ResidentArgs.dependencies (args : ResidentArgs) (program : Program) (taskIndex : ℕ) : ℕ :=
  taskDependencies (args.task (program.taskOffset + taskIndex))

/-- The checks of one program. -/
def validateProgram (workload : Workload) (args : ResidentArgs) (program : Program) : Bool :=
  program.taskCount ≠ 0 && program.taskCount ≤ kMaximumTasks &&
  program.taskOffset ≤ args.tasks.length &&
  program.taskCount ≤ args.tasks.length - program.taskOffset &&
  program.nextProgram < args.programs.length &&
  (program.flags &&& (2 ^ 32 - 1 - (kProgramAdvancesStep ||| kProgramEvaluatesPredicate |||
    kProgramBranchesOnState))) = 0 &&
  (!program.has kProgramBranchesOnState || program.branchProgram < args.programs.length) &&
  (List.range program.taskCount).all (fun taskIndex =>
    workload.validTask (args.task (program.taskOffset + taskIndex)) &&
    args.dependencies program taskIndex &&& (2 ^ 64 - 1 - allTasksMask program.taskCount) = 0 &&
    args.dependencies program taskIndex &&& (1 <<< taskIndex) = 0) &&
  reachableTasks (args.dependencies program) program.taskCount = allTasksMask program.taskCount

/-- `validate_programs`. -/
def validatePrograms (workload : Workload) (args : ResidentArgs) (state : State) : Bool :=
  state.abiVersion = kAbiVersion && args.programs.length ≠ 0 && args.tasks.length ≠ 0 &&
  args.programs.length ≤ kMaximumPrograms &&
  phaseProgram state.phase < args.programs.length &&
  phaseGeneration state.phase < args.phaseStateCount &&
  state.maxSteps ≠ 0 && args.phaseStateCount ≠ 0 &&
  state.workerCount ≠ 0 && state.workerCount ≤ kMaximumResidentWorkers &&
  workload.validContext state &&
  args.programs.all (validateProgram workload args)

/-- Task `t` of a program depends on task `d`. -/
def ResidentArgs.Depends (args : ResidentArgs) (program : Program) (t d : ℕ) : Prop :=
  (args.dependencies program t).testBit d = true

instance (args : ResidentArgs) (program : Program) (t d : ℕ) :
    Decidable (args.Depends program t d) :=
  inferInstanceAs (Decidable (_ = true))

/-- What is known of an accepted program. -/
structure ValidProgram (args : ResidentArgs) (program : Program) : Prop where
  taskCount_pos : 0 < program.taskCount
  taskCount_le : program.taskCount ≤ kMaximumTasks
  nextProgram_lt : program.nextProgram < args.programs.length
  branchProgram_lt : program.has kProgramBranchesOnState = true →
    program.branchProgram < args.programs.length
  /-- A task depends on tasks of its program only. -/
  lt_of_depends : ∀ {t d}, t < program.taskCount → args.Depends program t d →
    d < program.taskCount
  /-- No chain of dependencies goes on for ever. -/
  grounded : ∀ {t}, t < program.taskCount → Acc (fun d t => args.Depends program t d) t

section Walk

variable {dependencies : ℕ → ℕ} {taskCount : ℕ}

/-- Every task that the walk has reached is grounded. -/
def Walked (dependencies : ℕ → ℕ) (reachableMask : ℕ) : Prop :=
  ∀ t, reachableMask.testBit t = true →
    (∀ d, (dependencies t).testBit d = true → reachableMask.testBit d = true) ∧
    Acc (fun d t => (dependencies t).testBit d = true) t

/-- One task of a pass. -/
theorem Walked.visit {reachableMask : ℕ} (h : Walked dependencies reachableMask) (taskIndex : ℕ) :
    Walked dependencies (if reachableMask &&& (1 <<< taskIndex) = 0 ∧
        dependencies taskIndex &&& reachableMask = dependencies taskIndex then
      reachableMask ||| (1 <<< taskIndex) else reachableMask) := by
  split
  · rename_i hvisit
    have hdepends := and_eq_left_iff.mp hvisit.2
    intro t ht
    rw [Nat.testBit_or, Nat.one_shiftLeft, Bool.or_eq_true] at ht
    have hkeep : ∀ d, reachableMask.testBit d = true →
        (reachableMask ||| 1 <<< taskIndex).testBit d = true := by
      intro d hd
      simp [hd]
    rcases ht with ht | ht
    · obtain ⟨hreached, hacc⟩ := h t ht
      exact ⟨fun d hd => hkeep d (hreached d hd), hacc⟩
    · rw [Nat.testBit_two_pow, decide_eq_true_eq] at ht
      subst ht
      exact ⟨fun d hd => hkeep d (hdepends d hd),
        ⟨_, fun d hd => (h d (hdepends d hd)).2⟩⟩
  · exact h

/-- One pass. -/
theorem Walked.pass {reachableMask : ℕ} (h : Walked dependencies reachableMask) :
    Walked dependencies (reachablePass dependencies taskCount reachableMask) := by
  unfold reachablePass
  induction List.range taskCount generalizing reachableMask with
  | nil => exact h
  | cons taskIndex rest ih => exact ih (h.visit taskIndex)

/-- The whole walk reaches grounded tasks only. -/
theorem walked_reachableTasks (dependencies : ℕ → ℕ) (taskCount : ℕ) :
    Walked dependencies (reachableTasks dependencies taskCount) := by
  have hfold : ∀ (passes : List ℕ) (mask : ℕ), Walked dependencies mask →
      Walked dependencies (passes.foldl (fun mask _ =>
        reachablePass dependencies taskCount mask) mask) := by
    intro passes
    induction passes with
    | nil => exact fun _ h => h
    | cons _ rest ih => exact fun mask h => ih _ h.pass
  exact hfold _ 0 fun t ht => by simp at ht

end Walk

variable {workload : Workload} {args : ResidentArgs} {state : State}

/-- An accepted program is valid. -/
theorem validProgram_of_validate {program : Program}
    (h : validateProgram workload args program = true) : ValidProgram args program := by
  simp only [validateProgram, Bool.and_eq_true, Bool.or_eq_true, Bool.not_eq_true',
    decide_eq_true_eq, ne_eq] at h
  obtain ⟨⟨⟨⟨⟨⟨⟨⟨hpos, hle⟩, -⟩, -⟩, hnext⟩, -⟩, hbranch⟩, -⟩, hwalk⟩ := h
  have hwalked := walked_reachableTasks (args.dependencies program) program.taskCount
  rw [hwalk] at hwalked
  refine ⟨Nat.pos_of_ne_zero hpos, hle, hnext, fun hflag => ?_, fun {t d} ht hd => ?_,
    fun {t} ht => ?_⟩
  · rcases hbranch with hno | hlt
    · rw [hno] at hflag
      cases hflag
    · exact hlt
  · have hreached := (hwalked t (by simpa [testBit_allTasksMask] using ht)).1 d hd
    simpa [testBit_allTasksMask] using hreached
  · exact (hwalked t (by simpa [testBit_allTasksMask] using ht)).2

/-- What is known of a state that the device has accepted. -/
structure ValidGraph (args : ResidentArgs) (state : State) : Prop where
  programs_le : args.programs.length ≤ kMaximumPrograms
  phaseProgram_lt : phaseProgram state.phase < args.programs.length
  phaseGeneration_lt : phaseGeneration state.phase < args.phaseStateCount
  workerCount_pos : 0 < state.workerCount
  workerCount_le : state.workerCount ≤ kMaximumResidentWorkers
  program : ∀ {i}, i < args.programs.length → ValidProgram args (args.program i)

/-- An accepted graph is valid. -/
theorem validGraph_of_validate (h : validatePrograms workload args state = true) :
    ValidGraph args state := by
  simp only [validatePrograms, Bool.and_eq_true, decide_eq_true_eq, ne_eq] at h
  obtain ⟨⟨⟨⟨⟨⟨⟨⟨⟨⟨⟨-, -⟩, -⟩, hprograms⟩, hprogram⟩, hgeneration⟩, -⟩, -⟩, hpos⟩, hworkers⟩, -⟩,
    hall⟩ := h
  refine ⟨hprograms, hprogram, hgeneration, Nat.pos_of_ne_zero hpos, hworkers, fun {i} hi => ?_⟩
  rw [ResidentArgs.program, List.getD_eq_getElem _ _ hi]
  exact validProgram_of_validate (List.all_eq_true.mp hall _ (List.getElem_mem hi))

end LightRocm.Graph
