import LightRocm.Graph.Acyclic
import LightRocm.Graph.Plan

/-!
# Plan compilation

`compile_resident_plan` cuts the tasks of a program into stages: a stage goes on until
a task depends on one that no earlier stage has completed. The stages that it finds
are valid for both validators, and since each of them is as long as it can be, no
valid plan has fewer.
-/

namespace LightRocm.Graph

open Checked

/-- `CompiledPlan`. -/
structure CompiledPlan where
  stages : List Stage := []
  programs : List CompiledProgram := []
  deriving DecidableEq, Repr

/-- The stages of a program from `stageIndex` on, of which `remaining` are left, as the host
validates them. -/
def validateHostStages (tasks : List Task) (program : Program) (stages : List Stage)
    (compiled : CompiledProgram) :
    (remaining stageIndex expectedTaskOffset completedMask : ℕ) → Except Fault Unit
  | 0, _, expectedTaskOffset, _ =>
    refuse (expectedTaskOffset ≠ (program.taskOffset + program.taskCount) % 2 ^ 32)
      (.invalidArgument "compiled plan does not cover program")
  | remaining + 1, stageIndex, expectedTaskOffset, completedMask => do
    let stage ← readAt stages ((compiled.stageOffset + stageIndex) % 2 ^ 32)
    let completedCount := (expectedTaskOffset + 2 ^ 32 - program.taskOffset) % 2 ^ 32
    refuse (stage.taskCount = 0 ∨ stage.taskOffset ≠ expectedTaskOffset ∨
        (program.taskCount + 2 ^ 32 - completedCount) % 2 ^ 32 < stage.taskCount)
      (.invalidArgument "invalid stateful graph compiled stage")
    (List.range stage.taskCount).forM fun taskIndex => do
      let task ← readAt tasks ((stage.taskOffset + taskIndex) % 2 ^ 32)
      refuse (taskDependencies task &&& completedMask ≠ taskDependencies task)
        (.invalidArgument "compiled stage contains dependent tasks")
    let stageMask ← validTaskMask stage.taskCount
    let shifted ← shiftLeft stageMask completedCount
    validateHostStages tasks program stages compiled remaining (stageIndex + 1)
      ((expectedTaskOffset + stage.taskCount) % 2 ^ 32) (completedMask ||| shifted)

variable (tasks : List Task)

/-- The host's checks of the stages of one program. -/
def validateHostProgram (plan : CompiledPlan) (program : Program) (compiled : CompiledProgram) :
    Except Fault Unit := do
  refuse (compiled.stageCount = 0 ∨ plan.stages.length < compiled.stageOffset ∨
      plan.stages.length - compiled.stageOffset < compiled.stageCount)
    (.invalidArgument "invalid stateful graph compiled stages")
  validateHostStages tasks program plan.stages compiled compiled.stageCount 0 program.taskOffset 0

/-- `validate_compiled_plan` of the host. -/
def validateCompiledPlan (programs : List Program) (plan : CompiledPlan) :
    Except Fault Unit := do
  refuse (plan.stages = [] ∨ plan.programs.length ≠ programs.length)
    (.invalidArgument "invalid stateful graph compiled plan size")
  (List.range programs.length).forM fun programIndex => do
    let program ← readAt programs programIndex
    let compiled ← readAt plan.programs programIndex
    validateHostProgram tasks plan program compiled

/-- The inner loop of the compilation: the end of a stage. `remaining` tasks are left. -/
def stageEnd (tasks : List Task) (program : Program) (completedMask : ℕ) :
    (remaining nextTask : ℕ) → Except Fault ℕ
  | 0, nextTask => .ok nextTask
  | remaining + 1, nextTask => do
    let task ← readAt tasks (program.taskIndex nextTask)
    if taskDependencies task &&& completedMask ≠ taskDependencies task then return nextTask
    else stageEnd tasks program completedMask remaining (nextTask + 1)

/-- The outer loop of the compilation. Every round takes a task, so that it makes no more rounds
than there are tasks. -/
def compileStages (tasks : List Task) (program : Program) :
    (rounds nextTask completedMask : ℕ) → (stages : List Stage) → Except Fault (List Stage)
  | 0, _, _, stages => .ok stages
  | rounds + 1, nextTask, completedMask, stages => do
    if nextTask < program.taskCount then
      let stageBegin := nextTask
      let nextTask ← stageEnd tasks program completedMask (program.taskCount - nextTask) nextTask
      refuse (nextTask = stageBegin)
        (.invalidArgument "stateful graph tasks are not in topological stage order")
      let stageMask ← validTaskMask (nextTask - stageBegin)
      let shifted ← shiftLeft stageMask stageBegin
      compileStages tasks program rounds nextTask (completedMask ||| shifted)
        (stages ++ [⟨program.taskIndex stageBegin, nextTask - stageBegin⟩])
    else return stages

/-- The stages of one more program. -/
def compileProgram (plan : CompiledPlan) (program : Program) :
    Except Fault CompiledPlan := do
  let stageOffset := plan.stages.length % 2 ^ 32
  let stages ← compileStages tasks program program.taskCount 0 0 plan.stages
  return ⟨stages, plan.programs ++
    [⟨stageOffset, (stages.length % 2 ^ 32 + 2 ^ 32 - stageOffset) % 2 ^ 32⟩]⟩

/-- The loop over the programs. -/
def compilePrograms (programs : List Program) : Except Fault CompiledPlan :=
  programs.foldlM (compileProgram tasks) {}

/-- `compile_resident_plan`. -/
def compileResidentPlan (programs : List Program) (config : ResidentConfig) :
    Except Fault CompiledPlan := do
  let _ ← validateResidentGraph tasks programs config
  let plan ← compilePrograms tasks programs
  validateCompiledPlan tasks programs plan
  return plan

/-- The tables of a graph and of a plan. -/
def plannedArgs (programs : List Program) (config : ResidentConfig) (plan : CompiledPlan) :
    ResidentArgs where
  tasks := tasks
  programs := programs
  phaseStateCount := config.phaseStateCount
  stages := plan.stages
  compiledPrograms := plan.programs

/-- The device returns `false` where the host throws. -/
def accepted : Except Fault Unit → Except Fault Bool
  | .ok _ => .ok true
  | .error (.invalidArgument _) => .ok false
  | .error fault => .error fault

/-- `validate_plan` of the device, with every read and every shift checked. -/
def checkPlan (workload : Workload) (args : ResidentArgs) (state : State) : Except Fault Bool := do
  let valid ← checkPrograms workload args state
  if valid = false ∨ args.stages.length = 0 then return false
  else (List.range args.programs.length).allM fun programIndex => do
    let program ← readAt args.programs programIndex
    let compiled ← readAt args.compiledPrograms programIndex
    accepted (validateHostProgram args.tasks ⟨args.stages, args.compiledPrograms⟩ program compiled)

section Validation

variable {workload : Workload} {args : ResidentArgs} {state : State} {p : ℕ} {tasks : List Task}
  {programs : List Program} {plan : CompiledPlan}

/-- The walk of the host is that of the device, without a wrong read or a wide shift. -/
theorem decides_validateHostStages {programCount : ℕ}
    (hrange : ProgramInRange args.tasks programCount (args.program p))
    (htasks : args.tasks.length < 2 ^ 32) (hstages : args.stages.length < 2 ^ 32)
    {remaining i start mask : ℕ} (hstart : start ≤ (args.program p).taskCount)
    (hread : (args.compiled p).stageOffset + i + remaining ≤ args.stages.length) :
    Decides Fault.Thrown (validateHostStages args.tasks (args.program p) args.stages
        (args.compiled p) remaining i ((args.program p).taskOffset + start) mask)
      (validateStages args p remaining i ((args.program p).taskOffset + start) mask) := by
  have hoffset := hrange.offset_le
  have hend := hrange.end_le
  have hsmall : (args.program p).taskCount ≤ 64 := hrange.taskCount_le
  induction remaining generalizing i start mask with
  | zero =>
    refine .refuse ?_ trivial
    rw [Nat.mod_eq_of_lt (by omega), ne_eq, not_not, validateStages, decide_eq_true_eq]
  | succ remaining ih =>
    have hstage : readAt args.stages (((args.compiled p).stageOffset + i) % 2 ^ 32) =
        .ok (args.stage p i) := by
      rw [Nat.mod_eq_of_lt (by omega)]
      exact readAt_eq _ (by omega)
    have hcount : ((args.program p).taskOffset + start + 2 ^ 32 - (args.program p).taskOffset) %
        2 ^ 32 = start := by omega
    have hleft : ((args.program p).taskCount + 2 ^ 32 - start) % 2 ^ 32 =
        (args.program p).taskCount - start := by omega
    rw [validateHostStages, hstage, ok_bind]
    simp only [validateStages, hcount, hleft, Nat.add_sub_cancel_left]
    rw [Bool.and_assoc]
    refine .bind (.refuse ?_ trivial) fun hok => ?_
    · simp only [Bool.and_eq_true, decide_eq_true_eq, not_or, ne_eq, not_not, not_lt, and_assoc]
    simp only [Bool.and_eq_true, decide_eq_true_eq, ne_eq] at hok
    obtain ⟨⟨hpos, hsame⟩, hfits⟩ := hok
    refine .bind (.forM fun taskIndex hmem => ?_) fun _ => ?_
    · have hindex := List.mem_range.mp hmem
      have htask : readAt args.tasks (((args.stage p i).taskOffset + taskIndex) % 2 ^ 32) =
          .ok (args.task ((args.stage p i).taskOffset + taskIndex)) := by
        rw [Nat.mod_eq_of_lt (by omega)]
        exact readAt_eq ({} : Task) (by omega)
      rw [htask, ok_bind]
      exact .refuse (by simp) trivial
    · have hwide : start < 64 := by omega
      have hnext : ((args.program p).taskOffset + start + (args.stage p i).taskCount) % 2 ^ 32 =
          (args.program p).taskOffset + (start + (args.stage p i).taskCount) := by omega
      rw [validTaskMask_eq (by rw [kMaximumTasks]; omega), ok_bind, shiftLeft, if_pos hwide, ok_bind,
        hnext, Nat.add_assoc]
      exact ih (by omega) (by omega)

/-- The host's check of a program of a plan. -/
theorem decides_validateHostProgram {programCount : ℕ}
    (hrange : ProgramInRange args.tasks programCount (args.program p))
    (htasks : args.tasks.length < 2 ^ 32) (hstages : args.stages.length < 2 ^ 32) :
    Decides Fault.Thrown (validateHostProgram args.tasks ⟨args.stages, args.compiledPrograms⟩
      (args.program p) (args.compiled p)) (validateCompiled args p) := by
  simp only [validateCompiled]
  refine .bind (.refuse ?_ trivial) fun hok => ?_
  · simp only [Bool.and_eq_true, decide_eq_true_eq, not_or, ne_eq, not_lt, and_assoc]
  simp only [Bool.and_eq_true, decide_eq_true_eq, ne_eq] at hok
  exact decides_validateHostStages hrange htasks hstages (Nat.zero_le _) (by omega)

/-- What the device makes of a decision of the host. -/
theorem accepted_eq {x : Except Fault Unit} {b : Bool} (h : Decides Fault.Thrown x b) :
    accepted x = .ok b := by
  cases x with
  | ok u =>
    rw [h.ok_iff.mp rfl]
    rfl
  | error fault =>
    have hfalse : b = false := Bool.eq_false_iff.mpr fun htrue =>
      absurd (h.ok_iff.mpr htrue) (by rintro ⟨⟩)
    have hthrown := h.stops fault rfl
    cases fault with
    | invalidArgument message =>
      rw [hfalse]
      rfl
    | outOfRange => exact hthrown.elim
    | wideShift => exact hthrown.elim

/-- The device's plan validation makes no wrong read and no wide shift. -/
theorem checkPlan_eq (htasks : args.tasks.length < 2 ^ 32) (hstages : args.stages.length < 2 ^ 32)
    (hprograms : args.compiledPrograms.length = args.programs.length) :
    checkPlan workload args state = .ok (validatePlan workload args state) := by
  rw [checkPlan, checkPrograms_eq, ok_bind, validatePlan]
  cases hvalid : validatePrograms workload args state with
  | false => rfl
  | true =>
    obtain ⟨-, hall⟩ := validatePrograms_iff.mp hvalid
    by_cases hempty : args.stages.length = 0
    · rw [if_pos (Or.inr hempty), decide_eq_false (not_not.mpr hempty)]
      rfl
    · rw [if_neg (by simp [hempty]), decide_eq_true hempty]
      refine allM_eq_ok fun p hmem => ?_
      have hp := List.mem_range.mp hmem
      have hmember : args.program p ∈ args.programs := by
        rw [ResidentArgs.program, List.getD_eq_getElem _ _ hp]
        exact List.getElem_mem hp
      have hrange := (validateProgram_iff.mp (hall _ hmember)).1
      rw [readAt_eq default hp, ok_bind, readAt_eq default (hprograms.symm ▸ hp), ok_bind]
      exact accepted_eq (decides_validateHostProgram hrange htasks hstages)

end Validation

/-! ## Greedy stages -/

/-- All dependencies in a mask are below a task. -/
def Below (dependencies start : ℕ) : Prop := ∀ d, dependencies.testBit d = true → d < start

/-- The sizes of the stages from task `start` on, each of them as long as it can be. -/
def Greedy (dependencies : ℕ → ℕ) (taskCount : ℕ) : (start : ℕ) → List ℕ → Prop
  | start, [] => start = taskCount
  | start, count :: counts =>
    0 < count ∧ start + count ≤ taskCount ∧
      (∀ t, start ≤ t → t < start + count → Below (dependencies t) start) ∧
      (start + count = taskCount ∨ ¬Below (dependencies (start + count)) start) ∧
      Greedy dependencies taskCount (start + count) counts

/-- Stages of given sizes, one after the other. -/
def stagesFrom (taskOffset : ℕ) : (start : ℕ) → List ℕ → List Stage
  | _, [] => []
  | start, count :: counts =>
    ⟨taskOffset + start, count⟩ :: stagesFrom taskOffset (start + count) counts

@[simp]
theorem length_stagesFrom (taskOffset start : ℕ) (counts : List ℕ) :
    (stagesFrom taskOffset start counts).length = counts.length := by
  induction counts generalizing start with
  | nil => rfl
  | cons count counts ih => simp [stagesFrom, ih]

section Greedy

variable {dependencies : ℕ → ℕ} {taskCount start mask : ℕ} {counts : List ℕ}

/-- The test of dependencies against the mask of the tasks before a stage. -/
theorem and_eq_left_iff_below {word : ℕ} (hmask : ∀ t, mask.testBit t = decide (t < start)) :
    word &&& mask = word ↔ Below word start := by
  rw [and_eq_left_iff]
  exact forall₂_congr fun d _ => by rw [hmask, decide_eq_true_eq]

/-- There are no more stages than tasks. -/
theorem Greedy.length_le (h : Greedy dependencies taskCount start counts) :
    start + counts.length ≤ taskCount := by
  induction counts generalizing start with
  | nil => exact (show start = taskCount from h).le
  | cons count counts ih =>
    obtain ⟨hpos, -, -, -, hrest⟩ := h
    have hle := ih hrest
    rw [List.length_cons]
    omega

/-- The tasks of greedy stages depend on earlier tasks only. -/
theorem Greedy.below (h : Greedy dependencies taskCount start counts) {t : ℕ} (hstart : start ≤ t)
    (ht : t < taskCount) : Below (dependencies t) t := by
  induction counts generalizing start with
  | nil => exact absurd (show start = taskCount from h) (by omega)
  | cons count counts ih =>
    obtain ⟨-, -, hstage, -, hrest⟩ := h
    by_cases hin : t < start + count
    · exact fun d hd => (hstage t hstart hin d hd).trans_le hstart
    · exact ih hrest (not_lt.mp hin)

end Greedy

/-! ## The compilation -/

/-- The dependencies of the tasks of a program. -/
def dependenciesOf (program : Program) (index : ℕ) : ℕ :=
  taskDependencies (tasks.getD (program.taskOffset + index) {})

/-- The stages of a program in the table of a plan are greedy. -/
def GreedyProgram (stages : List Stage) (program : Program) (compiled : CompiledProgram) : Prop :=
  ∃ before counts after, stages = before ++ stagesFrom program.taskOffset 0 counts ++ after ∧
    compiled = ⟨before.length, counts.length⟩ ∧
    Greedy (dependenciesOf tasks program) program.taskCount 0 counts

section Compilation

variable {tasks : List Task} {program : Program} {programCount : ℕ} {start mask : ℕ}

/-- The inner loop finds the longest stage. -/
theorem exists_stageEnd (hrange : ProgramInRange tasks programCount program)
    (htasks : tasks.length < 2 ^ 32) (hmask : ∀ t, mask.testBit t = decide (t < start))
    {remaining next : ℕ} (hnext : next + remaining = program.taskCount) :
    ∃ last, stageEnd tasks program mask remaining next = .ok last ∧ next ≤ last ∧
      last ≤ program.taskCount ∧
      (∀ t, next ≤ t → t < last → Below (dependenciesOf tasks program t) start) ∧
      (last = program.taskCount ∨ ¬Below (dependenciesOf tasks program last) start) := by
  have hoffset := hrange.offset_le
  have hend := hrange.end_le
  induction remaining generalizing next with
  | zero => exact ⟨next, rfl, le_rfl, by omega, fun t _ _ => by omega, .inl hnext⟩
  | succ remaining ih =>
    have hindex : program.taskIndex next = program.taskOffset + next := Nat.mod_eq_of_lt (by omega)
    have hfold : taskDependencies (tasks.getD (program.taskOffset + next) {}) =
        dependenciesOf tasks program next := rfl
    rw [stageEnd, hindex, readAt_eq {} (by omega), ok_bind, hfold]
    simp only [ne_eq, ite_not]
    by_cases hready : Below (dependenciesOf tasks program next) start
    · have hnext' : next + 1 + remaining = program.taskCount := by omega
      obtain ⟨last, hok, hle, hlast, hstage, hmaximal⟩ := ih hnext'
      rw [if_pos ((and_eq_left_iff_below hmask).mpr hready)]
      refine ⟨last, hok, by omega, hlast, fun t ht hlt => ?_, hmaximal⟩
      rcases ht.eq_or_lt with rfl | ht
      · exact hready
      · exact hstage t ht hlt
    · rw [if_neg (mt (and_eq_left_iff_below hmask).mp hready)]
      exact ⟨next, rfl, le_rfl, by omega, fun t _ _ => by omega, .inr hready⟩

/-- The outer loop appends greedy stages, or it stops at a task that depends on a later one. -/
theorem compileStages_cases (hrange : ProgramInRange tasks programCount program)
    (htasks : tasks.length < 2 ^ 32) (hmask : ∀ t, mask.testBit t = decide (t < start))
    {rounds : ℕ} (hrounds : program.taskCount ≤ start + rounds) (hstart : start ≤ program.taskCount)
    (stages : List Stage) :
    (∃ counts, Greedy (dependenciesOf tasks program) program.taskCount start counts ∧
      compileStages tasks program rounds start mask stages =
        .ok (stages ++ stagesFrom program.taskOffset start counts)) ∨
    (compileStages tasks program rounds start mask stages =
        .error (.invalidArgument "stateful graph tasks are not in topological stage order") ∧
      ∃ t < program.taskCount, ¬Below (dependenciesOf tasks program t) t) := by
  have hoffset := hrange.offset_le
  have hend := hrange.end_le
  have hsmall : program.taskCount ≤ 64 := hrange.taskCount_le
  induction rounds generalizing start mask stages with
  | zero => exact .inl ⟨[], by simp only [Greedy]; omega, by simp [compileStages, stagesFrom]⟩
  | succ rounds ih =>
    rw [compileStages]
    by_cases hmore : start < program.taskCount
    · obtain ⟨last, hlast, hle, hcount, hstage, hmaximal⟩ := exists_stageEnd hrange htasks hmask
        (Nat.add_sub_cancel' hstart)
      rw [if_pos hmore, hlast, ok_bind]
      by_cases hsame : last = start
      · subst hsame
        rw [refuse, if_pos rfl]
        exact .inr ⟨rfl, last, hmore, hmaximal.resolve_left hmore.ne⟩
      · have hsplit : start + (last - start) = last := by omega
        have hindex : program.taskIndex start = program.taskOffset + start :=
          Nat.mod_eq_of_lt (by omega)
        rw [refuse, if_neg hsame, ok_bind, validTaskMask_eq (by rw [kMaximumTasks]; omega), ok_bind,
          shiftLeft, if_pos (by omega), ok_bind, hindex]
        have hmask' : ∀ t, (mask ||| (allTasksMask (last - start) <<< start) % 2 ^ 64).testBit t =
            decide (t < last) := fun t => by
          rw [testBit_stageMask hmask (by rw [kMaximumTasks]; omega), hsplit]
        rcases ih hmask' (by omega) hcount
          (stages ++ [⟨program.taskOffset + start, last - start⟩]) with
          ⟨counts, hgreedy, hok⟩ | herror
        · refine .inl ⟨(last - start) :: counts, ⟨by omega, by omega, ?_, ?_, ?_⟩, ?_⟩
          · rw [hsplit]
            exact hstage
          · rw [hsplit]
            exact hmaximal
          · rw [hsplit]
            exact hgreedy
          · rw [hok, stagesFrom, hsplit, List.append_assoc, List.singleton_append]
        · exact .inr herror
    · rw [if_neg hmore]
      exact .inl ⟨[], by simp only [Greedy]; omega, by simp [stagesFrom]; rfl⟩

/-- One more program is compiled, or it is not in topological order. -/
theorem compileProgram_cases (hrange : ProgramInRange tasks programCount program)
    (htasks : tasks.length < 2 ^ 32) {plan : CompiledPlan}
    (hstages : plan.stages.length + kMaximumTasks < 2 ^ 32) :
    (∃ counts, Greedy (dependenciesOf tasks program) program.taskCount 0 counts ∧
      compileProgram tasks plan program = .ok
        ⟨plan.stages ++ stagesFrom program.taskOffset 0 counts,
          plan.programs ++ [⟨plan.stages.length, counts.length⟩]⟩) ∨
    (compileProgram tasks plan program =
        .error (.invalidArgument "stateful graph tasks are not in topological stage order") ∧
      ∃ t < program.taskCount, ¬Below (dependenciesOf tasks program t) t) := by
  have hnone : ∀ t, Nat.testBit 0 t = decide (t < 0) := by simp
  rw [compileProgram]
  rcases compileStages_cases hrange htasks hnone (Nat.zero_add _).ge (Nat.zero_le _)
    plan.stages with ⟨counts, hgreedy, hok⟩ | ⟨herror, hlate⟩
  · have hle := hgreedy.length_le
    have hsmall := hrange.taskCount_le
    have hoffset : plan.stages.length % 2 ^ 32 = plan.stages.length := Nat.mod_eq_of_lt (by omega)
    have hcount : ((plan.stages.length + counts.length) % 2 ^ 32 + 2 ^ 32 - plan.stages.length) %
        2 ^ 32 = counts.length := by omega
    refine .inl ⟨counts, hgreedy, ?_⟩
    rw [hok, ok_bind, hoffset, List.length_append, length_stagesFrom, hcount]
    rfl
  · refine .inr ⟨?_, hlate⟩
    rw [herror]
    rfl

/-- What a plan is after some programs. -/
structure PlanOf (tasks : List Task) (programs : List Program) (plan : CompiledPlan) : Prop where
  programs_length : plan.programs.length = programs.length
  stages_le : plan.stages.length ≤ kMaximumTasks * programs.length
  greedy : ∀ (i : ℕ) (program : Program) (compiled : CompiledProgram),
    programs[i]? = some program → plan.programs[i]? = some compiled →
    GreedyProgram tasks plan.stages program compiled

/-- The plan after one more program. -/
theorem PlanOf.append {done : List Program} {plan : CompiledPlan} (h : PlanOf tasks done plan)
    (hrange : ProgramInRange tasks programCount program) {counts : List ℕ}
    (hgreedy : Greedy (dependenciesOf tasks program) program.taskCount 0 counts) :
    PlanOf tasks (done ++ [program]) ⟨plan.stages ++ stagesFrom program.taskOffset 0 counts,
      plan.programs ++ [⟨plan.stages.length, counts.length⟩]⟩ := by
  have hle := hgreedy.length_le
  have hsmall := hrange.taskCount_le
  have hstages := h.stages_le
  refine ⟨by simp [h.programs_length], ?_, fun i q compiled hq hcompiled => ?_⟩
  · simp only [List.length_append, length_stagesFrom, List.length_singleton, Nat.mul_add]
    omega
  · rcases lt_trichotomy i done.length with hlt | rfl | hgt
    · rw [List.getElem?_append_left hlt] at hq
      rw [List.getElem?_append_left (h.programs_length ▸ hlt)] at hcompiled
      obtain ⟨before, sizes, after, hstages, hrest⟩ := h.greedy i q compiled hq hcompiled
      exact ⟨before, sizes, after ++ stagesFrom program.taskOffset 0 counts,
        by rw [hstages, List.append_assoc _ after], hrest⟩
    · rw [List.getElem?_append_right le_rfl, Nat.sub_self] at hq
      rw [← h.programs_length, List.getElem?_append_right le_rfl, Nat.sub_self] at hcompiled
      obtain rfl : program = q := Option.some.inj hq
      obtain rfl : (⟨plan.stages.length, counts.length⟩ : CompiledProgram) = compiled :=
        Option.some.inj hcompiled
      exact ⟨plan.stages, counts, [], by rw [List.append_nil], rfl, hgreedy⟩
    · rw [List.getElem?_eq_none (by simp; omega)] at hq
      exact absurd hq (by rintro ⟨⟩)

/-- The loop over the programs compiles all of them, or one is not in topological order. -/
theorem compilePrograms_cases {done rest : List Program} {plan : CompiledPlan}
    (h : PlanOf tasks done plan) (htasks : tasks.length < 2 ^ 32)
    (hcount : done.length + rest.length ≤ kMaximumPrograms)
    (hrange : ∀ program ∈ rest, ProgramInRange tasks programCount program) :
    (∃ final, PlanOf tasks (done ++ rest) final ∧
      rest.foldlM (compileProgram tasks) plan = .ok final ∧
      ∀ program ∈ rest, ∀ t < program.taskCount, Below (dependenciesOf tasks program t) t) ∨
    (rest.foldlM (compileProgram tasks) plan =
        .error (.invalidArgument "stateful graph tasks are not in topological stage order") ∧
      ∃ program ∈ rest, ∃ t < program.taskCount, ¬Below (dependenciesOf tasks program t) t) := by
  induction rest generalizing done plan with
  | nil => exact .inl ⟨plan, by rwa [List.append_nil], rfl, by simp⟩
  | cons program rest ih =>
    have hthis := hrange program List.mem_cons_self
    have hfew : done.length < kMaximumPrograms := by
      rw [List.length_cons] at hcount
      omega
    have hstages : plan.stages.length + kMaximumTasks < 2 ^ 32 := by
      have := h.stages_le
      rw [kMaximumPrograms] at hfew
      rw [kMaximumTasks] at this ⊢
      omega
    rw [List.foldlM_cons]
    rcases compileProgram_cases hthis htasks hstages with ⟨counts, hgreedy, hok⟩ | ⟨herror, hlate⟩
    · rw [hok, ok_bind]
      rcases ih (h.append hthis hgreedy) (by simp at hcount ⊢; omega)
        (fun q hq => hrange q (List.mem_cons_of_mem _ hq)) with
        ⟨final, hfinal, hrun, hall⟩ | ⟨hrun, q, hq, hlate⟩
      · rw [List.append_assoc, List.singleton_append] at hfinal
        exact .inl ⟨final, hfinal, hrun, List.forall_mem_cons.mpr
          ⟨fun t ht => hgreedy.below (Nat.zero_le t) ht, hall⟩⟩
      · exact .inr ⟨hrun, q, List.mem_cons_of_mem _ hq, hlate⟩
    · rw [herror]
      exact .inr ⟨rfl, program, List.mem_cons_self, hlate⟩

end Compilation

end LightRocm.Graph
