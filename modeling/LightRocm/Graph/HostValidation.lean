import LightRocm.Graph.Validation
import LightRocm.Lib.Checked

/-!
# Validation on the host

`validate_resident_graph` and `initialize` of the resident executor, and the device's
`validate_programs` once more, with every read of the task table and every shift
checked. Both validators make the same checks, except that only the device looks for
cycles.
-/

namespace LightRocm.Graph

open Checked

/-- How a call can end without a result. -/
inductive Fault where
  /-- `std::invalid_argument`. -/
  | invalidArgument (message : String)
  /-- A table is read outside its range. -/
  | outOfRange
  /-- The count of a shift reaches the width of its word. -/
  | wideShift
  deriving DecidableEq, Repr

/-- The call has thrown an exception. -/
def Fault.Thrown : Fault → Prop
  | .invalidArgument _ => True
  | _ => False

/-- `value << count` in a word of 64 bits. -/
def shiftLeft (value count : ℕ) : Except Fault ℕ :=
  if count < 64 then .ok ((value <<< count) % 2 ^ 64) else .error .wideShift

/-- `table[index]`. -/
def readAt {α : Type} (table : List α) (index : ℕ) : Except Fault α :=
  match table[index]? with
  | some value => .ok value
  | none => .error .outOfRange

/-- `valid_task_mask` of the host and `all_tasks_mask` of the device. -/
def validTaskMask (taskCount : ℕ) : Except Fault ℕ :=
  if taskCount = kMaximumTasks then .ok (2 ^ 64 - 1)
  else do return (← shiftLeft 1 taskCount) - 1

/-- The bits of a program that are not flags. -/
def notFlags : ℕ :=
  2 ^ 32 - 1 - (kProgramAdvancesStep ||| kProgramEvaluatesPredicate ||| kProgramBranchesOnState)

/-- `ResidentConfig`. -/
structure ResidentConfig where
  phaseStateCount : ℕ
  workerCount : ℕ
  deriving DecidableEq, Repr

/-- `ValidatedGraph`. -/
structure ValidatedGraph where
  taskBytes : ℕ
  programBytes : ℕ
  phaseStateBytes : ℕ
  deriving DecidableEq, Repr

/-- `program.task_offset + index`, a sum of words of 32 bits. -/
def Program.taskIndex (program : Program) (index : ℕ) : ℕ := (program.taskOffset + index) % 2 ^ 32

/-- The checks of one task of a program. -/
def validateResidentTask (tasks : List Task) (program : Program) (validMask index : ℕ) :
    Except Fault Unit := do
  let task ← readAt tasks (program.taskIndex index)
  let bit ← shiftLeft 1 index
  refuse (taskDependencies task &&& (2 ^ 64 - 1 - validMask) ≠ 0 ∨ taskDependencies task &&& bit ≠ 0)
    (.invalidArgument "invalid stateful graph dependency mask")

/-- The checks of one program. -/
def validateResidentProgram (tasks : List Task) (programCount : ℕ) (program : Program) :
    Except Fault Unit := do
  refuse (program.taskCount = 0 ∨ kMaximumTasks < program.taskCount ∨
      tasks.length < program.taskOffset ∨ tasks.length - program.taskOffset < program.taskCount)
    (.invalidArgument "invalid stateful graph task range")
  refuse (programCount ≤ program.nextProgram ∨
      (program.has kProgramBranchesOnState = true ∧ programCount ≤ program.branchProgram))
    (.invalidArgument "invalid stateful graph successor")
  refuse (program.flags &&& notFlags ≠ 0)
    (.invalidArgument "invalid stateful graph program flags")
  let validMask ← validTaskMask program.taskCount
  (List.range program.taskCount).forM (validateResidentTask tasks program validMask)

/-- `validate_resident_graph` of the host. -/
def validateResidentGraph (tasks : List Task) (programs : List Program) (config : ResidentConfig) :
    Except Fault ValidatedGraph := do
  refuse (tasks = []) (.invalidArgument "stateful graph must contain tasks")
  refuse (2 ^ 32 - 1 < tasks.length) (.invalidArgument "invalid stateful graph task count")
  refuse (programs = [] ∨ kMaximumPrograms < programs.length)
    (.invalidArgument "invalid stateful graph program count")
  refuse (config.phaseStateCount = 0 ∨ kMaximumPhaseStates < config.phaseStateCount)
    (.invalidArgument "invalid stateful graph phase-state count")
  refuse (config.workerCount = 0 ∨ kMaximumResidentWorkers < config.workerCount)
    (.invalidArgument "invalid stateful graph resident worker count")
  programs.forM (validateResidentProgram tasks programs.length)
  return ⟨tasks.length * 32, programs.length * 32, config.phaseStateCount * 20⟩

/-- The state that `initialize` uploads. -/
def initialState (config : ResidentConfig) (programCount programIndex maxSteps stopValue : ℕ) :
    Except Fault State := do
  refuse (programCount ≤ programIndex) (.invalidArgument "invalid stateful graph initial program")
  refuse (maxSteps = 0) (.invalidArgument "stateful graph max steps must be nonzero")
  return { abiVersion := kAbiVersion, status := .ready, phase := makePhase 0 programIndex
           maxSteps := maxSteps, stopValue := stopValue, workerCount := config.workerCount }

/-! ## The device's validation with checked reads and shifts -/

/-- The checks of one task on the device; `program_tasks` is a pointer, its index a word. -/
def checkTask (workload : Workload) (args : ResidentArgs) (program : Program)
    (validMask taskIndex : ℕ) : Except Fault Bool := do
  let task ← readAt args.tasks (program.taskOffset + taskIndex)
  let bit ← shiftLeft 1 taskIndex
  return workload.validTask task && taskDependencies task &&& (2 ^ 64 - 1 - validMask) = 0 &&
    taskDependencies task &&& bit = 0

/-- One visit of the topological walk. -/
def visitTask (args : ResidentArgs) (program : Program) (reachableMask taskIndex : ℕ) :
    Except Fault ℕ := do
  let bit ← shiftLeft 1 taskIndex
  let task ← readAt args.tasks (program.taskOffset + taskIndex)
  if reachableMask &&& bit = 0 ∧ taskDependencies task &&& reachableMask = taskDependencies task then
    return reachableMask ||| bit
  else return reachableMask

/-- The topological walk. -/
def checkWalk (args : ResidentArgs) (program : Program) : Except Fault ℕ :=
  (List.range program.taskCount).foldlM (fun reachableMask _ =>
    (List.range program.taskCount).foldlM (visitTask args program) reachableMask) 0

/-- The checks of one program on the device. -/
def checkProgram (workload : Workload) (args : ResidentArgs) (program : Program) :
    Except Fault Bool := do
  if program.taskCount = 0 ∨ kMaximumTasks < program.taskCount ∨
      args.tasks.length < program.taskOffset ∨
      args.tasks.length - program.taskOffset < program.taskCount ∨
      args.programs.length ≤ program.nextProgram ∨ program.flags &&& notFlags ≠ 0 ∨
      (program.has kProgramBranchesOnState = true ∧
        args.programs.length ≤ program.branchProgram) then return false
  else
    let validMask ← validTaskMask program.taskCount
    let inRange ← (List.range program.taskCount).allM (checkTask workload args program validMask)
    if inRange then return (← checkWalk args program) = validMask else return false

/-- `validate_programs`. -/
def checkPrograms (workload : Workload) (args : ResidentArgs) (state : State) :
    Except Fault Bool := do
  if state.abiVersion ≠ kAbiVersion ∨ args.programs.length = 0 ∨ args.tasks.length = 0 ∨
      kMaximumPrograms < args.programs.length ∨
      args.programs.length ≤ phaseProgram state.phase ∨
      args.phaseStateCount ≤ phaseGeneration state.phase ∨ state.maxSteps = 0 ∨
      args.phaseStateCount = 0 ∨ state.workerCount = 0 ∨
      kMaximumResidentWorkers < state.workerCount ∨ workload.validContext state = false then
    return false
  else args.programs.allM (checkProgram workload args)

section Checks

variable {tasks : List Task} {programs : List Program} {program : Program} {config : ResidentConfig}
  {workload : Workload} {args : ResidentArgs} {state : State}

/-- The bit of a task. -/
theorem shiftLeft_one {count : ℕ} (h : count < 64) : shiftLeft 1 count = .ok (1 <<< count) := by
  have hlt : 1 <<< count < 2 ^ 64 := by
    rw [Nat.one_shiftLeft]
    exact Nat.pow_lt_pow_right (by norm_num) h
  rw [shiftLeft, if_pos h, Nat.mod_eq_of_lt hlt]

/-- No mask needs a wide shift. -/
theorem validTaskMask_eq {taskCount : ℕ} (h : taskCount ≤ kMaximumTasks) :
    validTaskMask taskCount = .ok (allTasksMask taskCount) := by
  unfold validTaskMask allTasksMask
  split
  · rfl
  · rename_i hne
    rw [shiftLeft_one (lt_of_le_of_ne h hne)]
    rfl

/-- A read within the table. -/
theorem readAt_eq {α : Type} {table : List α} {index : ℕ} (default : α) (h : index < table.length) :
    readAt table index = .ok (table.getD index default) := by
  rw [readAt, List.getElem?_eq_getElem h, List.getD_eq_getElem _ _ h]

/-- What both validators check of a program. -/
structure ProgramInRange (tasks : List Task) (programCount : ℕ) (program : Program) : Prop where
  taskCount_pos : 0 < program.taskCount
  taskCount_le : program.taskCount ≤ kMaximumTasks
  offset_le : program.taskOffset ≤ tasks.length
  end_le : program.taskCount ≤ tasks.length - program.taskOffset
  nextProgram_lt : program.nextProgram < programCount
  branchProgram_lt : program.has kProgramBranchesOnState = true → program.branchProgram < programCount
  flags : program.flags &&& notFlags = 0

/-- The dependencies of a task are other tasks of its program. -/
def TaskInRange (tasks : List Task) (program : Program) (index : ℕ) : Prop :=
  taskDependencies (tasks.getD (program.taskOffset + index) {}) &&&
      (2 ^ 64 - 1 - allTasksMask program.taskCount) = 0 ∧
    taskDependencies (tasks.getD (program.taskOffset + index) {}) &&& (1 <<< index) = 0

/-- A task of a program is in the table. -/
theorem ProgramInRange.index_lt {programCount index : ℕ}
    (h : ProgramInRange tasks programCount program) (hindex : index < program.taskCount) :
    program.taskOffset + index < tasks.length := by
  have hoffset := h.offset_le
  have hend := h.end_le
  omega

variable {programCount : ℕ}

/-- The first checks of a program. -/
theorem programInRange_iff : ProgramInRange tasks programCount program ↔
    ¬(program.taskCount = 0 ∨ kMaximumTasks < program.taskCount ∨
      tasks.length < program.taskOffset ∨ tasks.length - program.taskOffset < program.taskCount) ∧
    ¬(programCount ≤ program.nextProgram ∨
      (program.has kProgramBranchesOnState = true ∧ programCount ≤ program.branchProgram)) ∧
    ¬(program.flags &&& notFlags ≠ 0) := by
  constructor
  · rintro ⟨h1, h2, h3, h4, h5, h6, h7⟩
    refine ⟨by omega, ?_, not_not.mpr h7⟩
    rintro (hnext | ⟨hbranch, hle⟩)
    · omega
    · exact absurd (h6 hbranch) (not_lt.mpr hle)
  · rintro ⟨hrange, hsuccessor, hflags⟩
    push Not at hrange hsuccessor hflags
    exact ⟨by omega, by omega, by omega, by omega, hsuccessor.1, hsuccessor.2, hflags⟩

/-- The read and the shift of a task of a program in range are harmless. -/
theorem validateResidentTask_eq {programCount index : ℕ}
    (h : ProgramInRange tasks programCount program) (hsmall : tasks.length ≤ 2 ^ 32 - 1)
    (hindex : index < program.taskCount) :
    validateResidentTask tasks program (allTasksMask program.taskCount) index =
      let dependencies := taskDependencies (tasks.getD (program.taskOffset + index) {})
      refuse (dependencies &&& (2 ^ 64 - 1 - allTasksMask program.taskCount) ≠ 0 ∨
        dependencies &&& (1 <<< index) ≠ 0)
        (.invalidArgument "invalid stateful graph dependency mask") := by
  have hlt := h.index_lt hindex
  have htask : program.taskIndex index = program.taskOffset + index :=
    Nat.mod_eq_of_lt (by omega)
  have hwidth : index < 64 := hindex.trans_le h.taskCount_le
  rw [validateResidentTask, htask, readAt_eq {} hlt, shiftLeft_one hwidth]
  rfl

/-- The host's check of a program. -/
theorem validateResidentProgram_eq_ok (hsmall : tasks.length ≤ 2 ^ 32 - 1) :
    validateResidentProgram tasks programCount program = .ok () ↔
      ProgramInRange tasks programCount program ∧
        ∀ index < program.taskCount, TaskInRange tasks program index := by
  rw [validateResidentProgram, after_refuse_eq_ok, after_refuse_eq_ok, after_refuse_eq_ok,
    programInRange_iff, and_assoc, and_assoc]
  refine and_congr_right fun hrange => and_congr_right fun hsuccessor => and_congr_right fun hflags => ?_
  have h : ProgramInRange tasks programCount program :=
    programInRange_iff.mpr ⟨hrange, hsuccessor, hflags⟩
  rw [validTaskMask_eq h.taskCount_le]
  refine forM_eq_ok.trans ?_
  simp only [List.mem_range]
  refine forall₂_congr fun index hindex => ?_
  rw [validateResidentTask_eq h hsmall hindex]
  simp only [refuse_eq_ok, TaskInRange, not_or, ne_eq, not_not]

/-- The host's check of a program stops with an exception only. -/
theorem stopsWith_validateResidentProgram (hsmall : tasks.length ≤ 2 ^ 32 - 1) :
    StopsWith Fault.Thrown (validateResidentProgram tasks programCount program) := by
  refine .after_refuse trivial fun hrange => .after_refuse trivial fun hsuccessor =>
    .after_refuse trivial fun hflags => ?_
  have h : ProgramInRange tasks programCount program :=
    programInRange_iff.mpr ⟨hrange, hsuccessor, hflags⟩
  rw [validTaskMask_eq h.taskCount_le]
  refine StopsWith.forM fun index hindex => ?_
  rw [validateResidentTask_eq h hsmall (List.mem_range.mp hindex)]
  exact .refuse trivial

/-- What the host accepts. -/
structure HostValid (tasks : List Task) (programs : List Program) (config : ResidentConfig) :
    Prop where
  tasks_ne : tasks ≠ []
  tasks_le : tasks.length ≤ 2 ^ 32 - 1
  programs_ne : programs ≠ []
  programs_le : programs.length ≤ kMaximumPrograms
  phaseStateCount_pos : 0 < config.phaseStateCount
  phaseStateCount_le : config.phaseStateCount ≤ kMaximumPhaseStates
  workerCount_pos : 0 < config.workerCount
  workerCount_le : config.workerCount ≤ kMaximumResidentWorkers
  inRange : ∀ program ∈ programs, ProgramInRange tasks programs.length program
  tasksInRange : ∀ program ∈ programs, ∀ index < program.taskCount, TaskInRange tasks program index

/-- The host's validation. -/
theorem validateResidentGraph_eq_ok :
    (∃ graph, validateResidentGraph tasks programs config = .ok graph) ↔
      HostValid tasks programs config := by
  simp only [validateResidentGraph, after_refuse_eq_ok, bind_eq_ok (x := programs.forM _),
    forM_eq_ok]
  constructor
  · rintro ⟨graph, htasks, hcount, hprograms, hphases, hworkers, -, hall, -⟩
    have hvalid := fun program hmem =>
      (validateResidentProgram_eq_ok (not_lt.mp hcount)).mp (hall program hmem)
    push Not at hprograms
    exact ⟨htasks, by omega, hprograms.1, hprograms.2, by omega, by omega, by omega, by omega,
      fun program hmem => (hvalid program hmem).1, fun program hmem => (hvalid program hmem).2⟩
  · intro h
    have hpos := h.phaseStateCount_pos
    have hworkers := h.workerCount_pos
    refine ⟨_, h.tasks_ne, not_lt.mpr h.tasks_le, ?_, ?_, ?_, (), fun program hmem => ?_, rfl⟩
    · exact not_or.mpr ⟨h.programs_ne, not_lt.mpr h.programs_le⟩
    · exact not_or.mpr ⟨by omega, not_lt.mpr h.phaseStateCount_le⟩
    · exact not_or.mpr ⟨by omega, not_lt.mpr h.workerCount_le⟩
    · exact (validateResidentProgram_eq_ok h.tasks_le).mpr
        ⟨h.inRange program hmem, h.tasksInRange program hmem⟩

/-- The host's validation stops with an exception only. -/
theorem stopsWith_validateResidentGraph :
    StopsWith Fault.Thrown (validateResidentGraph tasks programs config) := by
  refine .after_refuse trivial fun _ => .after_refuse trivial fun hcount =>
    .after_refuse trivial fun _ => .after_refuse trivial fun _ => .after_refuse trivial fun _ => ?_
  refine StopsWith.bind (.forM fun program _ => ?_) fun _ _ => .ok _
  exact stopsWith_validateResidentProgram (not_lt.mp hcount)

/-- The device's check of a program, apart from the cycles, is the host's and the workload's. -/
theorem validateProgram_iff : validateProgram workload args program = true ↔
    ProgramInRange args.tasks args.programs.length program ∧
      (∀ index < program.taskCount, TaskInRange args.tasks program index) ∧
      (∀ index < program.taskCount,
        workload.validTask (args.task (program.taskOffset + index)) = true) ∧
      reachableTasks (args.dependencies program) program.taskCount =
        allTasksMask program.taskCount := by
  simp only [validateProgram, Bool.and_eq_true, Bool.or_eq_true, Bool.not_eq_true',
    decide_eq_true_eq, List.all_eq_true, List.mem_range, ne_eq]
  constructor
  · rintro ⟨⟨⟨⟨⟨⟨⟨⟨hpos, hle⟩, hoffset⟩, hend⟩, hnext⟩, hflags⟩, hbranch⟩, htasks⟩, hwalk⟩
    refine ⟨⟨Nat.pos_of_ne_zero hpos, hle, hoffset, hend, hnext, fun hflag => ?_, hflags⟩,
      fun index hindex => ⟨(htasks index hindex).1.2, (htasks index hindex).2⟩,
      fun index hindex => (htasks index hindex).1.1, hwalk⟩
    exact hbranch.resolve_left fun hno => absurd (hno.symm.trans hflag) (by rintro ⟨⟩)
  · rintro ⟨⟨hpos, hle, hoffset, hend, hnext, hbranch, hflags⟩, htasks, hworkload, hwalk⟩
    refine ⟨⟨⟨⟨⟨⟨⟨⟨hpos.ne', hle⟩, hoffset⟩, hend⟩, hnext⟩, hflags⟩, ?_⟩, fun index hindex => ?_⟩, hwalk⟩
    · by_cases hflag : program.has kProgramBranchesOnState = true
      · exact Or.inr (hbranch hflag)
      · exact Or.inl (Bool.eq_false_iff.mpr hflag)
    · exact ⟨⟨hworkload index hindex, (htasks index hindex).1⟩, (htasks index hindex).2⟩

/-- The first check of a program on the device. -/
theorem not_programInRange_iff : ¬ProgramInRange tasks programCount program ↔
    program.taskCount = 0 ∨ kMaximumTasks < program.taskCount ∨
      tasks.length < program.taskOffset ∨ tasks.length - program.taskOffset < program.taskCount ∨
      programCount ≤ program.nextProgram ∨ program.flags &&& notFlags ≠ 0 ∨
      (program.has kProgramBranchesOnState = true ∧ programCount ≤ program.branchProgram) := by
  rw [programInRange_iff]
  tauto

/-- No read of a task and no shift of the device's check of a program goes wrong. -/
theorem checkProgram_eq : checkProgram workload args program =
    .ok (validateProgram workload args program) := by
  unfold checkProgram
  split
  · rename_i hbad
    have hnot := not_programInRange_iff.mpr hbad
    have hfalse : validateProgram workload args program = false :=
      Bool.eq_false_iff.mpr fun htrue => hnot (validateProgram_iff.mp htrue).1
    rw [hfalse]
    rfl
  · rename_i hgood
    have hrange : ProgramInRange args.tasks args.programs.length program :=
      not_not.mp fun hnot => hgood (not_programInRange_iff.mp hnot)
    have hwidth : ∀ index ∈ List.range program.taskCount, index < 64 := fun index hmem =>
      (List.mem_range.mp hmem).trans_le hrange.taskCount_le
    have hread : ∀ index ∈ List.range program.taskCount,
        readAt args.tasks (program.taskOffset + index) =
          .ok (args.task (program.taskOffset + index)) := fun index hmem =>
      readAt_eq ({} : Task) (hrange.index_lt (List.mem_range.mp hmem))
    have hall : (List.range program.taskCount).allM
        (checkTask workload args program (allTasksMask program.taskCount)) = .ok
          ((List.range program.taskCount).all fun index =>
            workload.validTask (args.task (program.taskOffset + index)) &&
            args.dependencies program index &&& (2 ^ 64 - 1 - allTasksMask program.taskCount) = 0 &&
            args.dependencies program index &&& (1 <<< index) = 0) :=
      allM_eq_ok fun index hmem => by
        rw [checkTask, hread index hmem, shiftLeft_one (hwidth index hmem)]
        rfl
    have hwalk : checkWalk args program =
        .ok (reachableTasks (args.dependencies program) program.taskCount) := by
      refine foldlM_eq_ok (fun _ _ mask => foldlM_eq_ok (fun index hmem mask => ?_) mask) 0
      rw [visitTask, shiftLeft_one (hwidth index hmem), hread index hmem]
      exact (apply_ite Except.ok _ _ _).symm
    have hvalue : validateProgram workload args program =
        (((List.range program.taskCount).all fun index =>
          workload.validTask (args.task (program.taskOffset + index)) &&
          args.dependencies program index &&& (2 ^ 64 - 1 - allTasksMask program.taskCount) = 0 &&
          args.dependencies program index &&& (1 <<< index) = 0) &&
        decide (reachableTasks (args.dependencies program) program.taskCount =
          allTasksMask program.taskCount)) := by
      rw [Bool.eq_iff_iff, validateProgram_iff]
      simp only [Bool.and_eq_true, decide_eq_true_eq, List.all_eq_true, List.mem_range]
      constructor
      · rintro ⟨-, htasks, hworkload, hreached⟩
        exact ⟨fun index hindex => ⟨⟨hworkload index hindex, (htasks index hindex).1⟩,
          (htasks index hindex).2⟩, hreached⟩
      · rintro ⟨htasks, hreached⟩
        exact ⟨hrange, fun index hindex => ⟨(htasks index hindex).1.2, (htasks index hindex).2⟩,
          fun index hindex => (htasks index hindex).1.1, hreached⟩
    rw [validTaskMask_eq hrange.taskCount_le, ok_bind, hall, ok_bind, hwalk, hvalue]
    split
    · rename_i htrue
      rw [htrue]
      rfl
    · rename_i hfalse
      rw [Bool.eq_false_iff.mpr hfalse]
      rfl

/-- The first checks of the device's validation. -/
def Admitted (workload : Workload) (args : ResidentArgs) (state : State) : Prop :=
  state.abiVersion = kAbiVersion ∧ args.programs.length ≠ 0 ∧ args.tasks.length ≠ 0 ∧
    args.programs.length ≤ kMaximumPrograms ∧ phaseProgram state.phase < args.programs.length ∧
    phaseGeneration state.phase < args.phaseStateCount ∧ state.maxSteps ≠ 0 ∧
    args.phaseStateCount ≠ 0 ∧ state.workerCount ≠ 0 ∧
    state.workerCount ≤ kMaximumResidentWorkers ∧ workload.validContext state = true

/-- The device's validation. -/
theorem validatePrograms_iff : validatePrograms workload args state = true ↔
    Admitted workload args state ∧
      ∀ program ∈ args.programs, validateProgram workload args program = true := by
  simp only [validatePrograms, Admitted, Bool.and_eq_true, decide_eq_true_eq, List.all_eq_true,
    and_assoc]

/-- The device's validation reads no task outside the table and makes no wide shift. -/
theorem checkPrograms_eq : checkPrograms workload args state =
    .ok (validatePrograms workload args state) := by
  unfold checkPrograms
  split
  · rename_i hbad
    have hfalse : validatePrograms workload args state = false := by
      refine Bool.eq_false_iff.mpr fun htrue => ?_
      obtain ⟨⟨h1, h2, h3, h4, h5, h6, h7, h8, h9, h10, h11⟩, -⟩ := validatePrograms_iff.mp htrue
      rw [h11] at hbad
      simp_all
      omega
    rw [hfalse]
    rfl
  · rename_i hgood
    push Not at hgood
    obtain ⟨h1, h2, h3, h4, h5, h6, h7, h8, h9, h10, h11⟩ := hgood
    have hadmitted : Admitted workload args state :=
      ⟨h1, h2, h3, h4, h5, h6, h7, h8, h9, h10, Bool.eq_true_of_not_eq_false h11⟩
    rw [allM_eq_ok fun program _ => checkProgram_eq]
    congr 1
    rw [Bool.eq_iff_iff, validatePrograms_iff, List.all_eq_true]
    exact ⟨fun h => ⟨hadmitted, h⟩, fun h => h.2⟩

end Checks

end LightRocm.Graph
