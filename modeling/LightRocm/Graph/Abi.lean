import Mathlib.Data.Nat.Bitwise
import Mathlib.Tactic

/-!
# The stateful graph ABI

The descriptors that the host uploads for the resident schedulers, the packed
phase word and the mask words. Words of 32 and 64 bits are natural numbers; a
sum or a shift that can leave its width is reduced where the source does so.
-/

namespace LightRocm.Graph

/-- `kAbiVersion`. -/
def kAbiVersion : ℕ := 8

/-- `kMaximumResidentWorkers`. -/
def kMaximumResidentWorkers : ℕ := 32

/-- `kMaximumTasks`. -/
def kMaximumTasks : ℕ := 64

/-- `kMaximumPrograms`. -/
def kMaximumPrograms : ℕ := 256

/-- `kProgramIndexBits`. -/
def kProgramIndexBits : ℕ := 8

/-- `make_phase`: generation and program in one word of 32 bits. -/
def makePhase (generation programIndex : ℕ) : ℕ :=
  (generation <<< kProgramIndexBits) % 2 ^ 32 ||| programIndex

/-- `phase_generation`. -/
def phaseGeneration (phase : ℕ) : ℕ := phase >>> kProgramIndexBits

/-- `phase_program`. -/
def phaseProgram (phase : ℕ) : ℕ := phase &&& (2 ^ kProgramIndexBits - 1)

/-- `kMaximumPhaseStates` of the host's `validate_resident_graph`: the number of
generations that the phase word can tell apart. -/
def kMaximumPhaseStates : ℕ := phaseGeneration (2 ^ 32 - 1) + 1

/-- `Status`. -/
inductive Status where
  | ready
  | running
  | complete
  | maxSteps
  | invalidProgram
  deriving DecidableEq, Repr

/-- `State` without the two fields that tasks write; those are part of the memory. -/
structure State where
  abiVersion : ℕ := kAbiVersion
  status : Status := .ready
  phase : ℕ := 0
  step : ℕ := 0
  maxSteps : ℕ := 1
  stopValue : ℕ := 0
  errorCode : ℕ := 0
  workerCount : ℕ := 1
  executedTasks : ℕ := 0
  deriving DecidableEq, Repr

/-- `Task`. -/
structure Task where
  opcode : ℕ := 0
  dependencyMask : ℕ := 0
  begin : ℕ := 0
  end_ : ℕ := 0
  argument0 : ℕ := 0
  argument1 : ℕ := 0
  dependencyMaskHigh : ℕ := 0
  deriving DecidableEq, Repr

/-- `kProgramAdvancesStep`. -/
def kProgramAdvancesStep : ℕ := 1 <<< 0

/-- `kProgramEvaluatesPredicate`. -/
def kProgramEvaluatesPredicate : ℕ := 1 <<< 1

/-- `kProgramBranchesOnState`. -/
def kProgramBranchesOnState : ℕ := 1 <<< 2

/-- `Program`. -/
structure Program where
  taskOffset : ℕ := 0
  taskCount : ℕ := 0
  nextProgram : ℕ := 0
  flags : ℕ := 0
  branchProgram : ℕ := 0
  deriving DecidableEq, Repr, Inhabited

/-- The flags of a program have a bit in common with `flag`. -/
def Program.has (program : Program) (flag : ℕ) : Bool := program.flags &&& flag ≠ 0

/-- `MaskState`. -/
structure MaskState where
  claimedMask : ℕ := 0
  completedMask : ℕ := 0
  claimedMaskHigh : ℕ := 0
  completedMaskHigh : ℕ := 0
  completedCount : ℕ := 0
  deriving DecidableEq, Repr

/-- `Stage`. -/
structure Stage where
  taskOffset : ℕ := 0
  taskCount : ℕ := 0
  deriving DecidableEq, Repr, Inhabited

/-- `CompiledProgram`. -/
structure CompiledProgram where
  stageOffset : ℕ := 0
  stageCount : ℕ := 0
  deriving DecidableEq, Repr, Inhabited

/-- `ResidentArgs`: the tables of a graph. The counts are the lengths of the tables. -/
structure ResidentArgs where
  tasks : List Task
  programs : List Program
  phaseStateCount : ℕ
  stages : List Stage := []
  compiledPrograms : List CompiledProgram := []

/-- `programs[index]`. -/
def ResidentArgs.program (args : ResidentArgs) (index : ℕ) : Program :=
  args.programs.getD index default

/-- `tasks[index]`. -/
def ResidentArgs.task (args : ResidentArgs) (index : ℕ) : Task := args.tasks.getD index {}

/-- `task_dependencies`. -/
def taskDependencies (task : Task) : ℕ := task.dependencyMask ||| (task.dependencyMaskHigh <<< 32)

/-- `all_tasks_mask`. -/
def allTasksMask (taskCount : ℕ) : ℕ :=
  if taskCount = kMaximumTasks then 2 ^ 64 - 1 else (1 <<< taskCount) - 1

/-- The bit of a task in its mask word. -/
def taskMask (taskIndex : ℕ) : ℕ := 1 <<< (taskIndex &&& 31)

variable (masks : MaskState)

/-- The word of the claimed masks that has the bit of a task. -/
def MaskState.claimedWord (taskIndex : ℕ) : ℕ :=
  if taskIndex >>> 5 = 0 then masks.claimedMask else masks.claimedMaskHigh

/-- The word of the completed masks that has the bit of a task. -/
def MaskState.completedWord (taskIndex : ℕ) : ℕ :=
  if taskIndex >>> 5 = 0 then masks.completedMask else masks.completedMaskHigh

/-- `atomicOr(claimed_word, task_mask)`. -/
def MaskState.orClaimed (taskIndex : ℕ) : MaskState :=
  if taskIndex >>> 5 = 0 then { masks with claimedMask := masks.claimedMask ||| taskMask taskIndex }
  else { masks with claimedMaskHigh := masks.claimedMaskHigh ||| taskMask taskIndex }

/-- `atomicOr(completed_word, task_mask)`. -/
def MaskState.orCompleted (taskIndex : ℕ) : MaskState :=
  if taskIndex >>> 5 = 0 then
    { masks with completedMask := masks.completedMask ||| taskMask taskIndex }
  else { masks with completedMaskHigh := masks.completedMaskHigh ||| taskMask taskIndex }

/-! ## The phase word -/

/-- The generation of a phase is its quotient by the number of programs. -/
theorem phaseGeneration_eq (phase : ℕ) : phaseGeneration phase = phase / 256 := by
  simp [phaseGeneration, kProgramIndexBits, Nat.shiftRight_eq_div_pow]

/-- The program of a phase is its remainder by the number of programs. -/
theorem phaseProgram_eq (phase : ℕ) : phaseProgram phase = phase % 256 := by
  rw [phaseProgram, kProgramIndexBits, Nat.and_two_pow_sub_one_eq_mod]

variable {generation programIndex : ℕ}

/-- The generation of a new phase is reduced to 24 bits. -/
theorem makePhase_eq (h : programIndex < kMaximumPrograms) :
    makePhase generation programIndex = generation % 2 ^ 24 * 256 + programIndex := by
  have hshift : (generation <<< kProgramIndexBits) % 2 ^ 32 =
      (generation % 2 ^ 24) <<< kProgramIndexBits := by
    simp only [kProgramIndexBits, Nat.shiftLeft_eq]
    omega
  have hlt : programIndex < 2 ^ kProgramIndexBits := h
  rw [makePhase, hshift, ← Nat.shiftLeft_add_eq_or_of_lt hlt, Nat.shiftLeft_eq]
  rfl

/-- The host's bound is the number of generations of 24 bits. -/
theorem kMaximumPhaseStates_eq : kMaximumPhaseStates = 2 ^ 24 := by
  rw [kMaximumPhaseStates, phaseGeneration_eq]
  norm_num

/-- The generation that a phase word gives back. -/
theorem phaseGeneration_makePhase (h : programIndex < kMaximumPrograms) :
    phaseGeneration (makePhase generation programIndex) = generation % kMaximumPhaseStates := by
  rw [kMaximumPhaseStates_eq, phaseGeneration_eq, makePhase_eq h]
  have hlt : programIndex < 256 := h
  omega

/-- The program that a phase word gives back. -/
theorem phaseProgram_makePhase (h : programIndex < kMaximumPrograms) :
    phaseProgram (makePhase generation programIndex) = programIndex := by
  rw [phaseProgram_eq, makePhase_eq h]
  have hlt : programIndex < 256 := h
  omega

/-- A phase word is made of its two parts. -/
theorem makePhase_self {phase : ℕ} (h : phaseGeneration phase < kMaximumPhaseStates) :
    makePhase (phaseGeneration phase) (phaseProgram phase) = phase := by
  have hlt : phaseProgram phase < kMaximumPrograms := by
    rw [phaseProgram_eq]
    exact Nat.mod_lt _ (by decide)
  rw [makePhase_eq hlt]
  rw [kMaximumPhaseStates_eq] at h
  rw [phaseGeneration_eq] at h ⊢
  rw [phaseProgram_eq]
  omega

/-! ## The mask words -/

/-- The bit that stands for a task in the word it belongs to. -/
def MaskState.claimed (taskIndex : ℕ) : Bool :=
  (masks.claimedWord taskIndex).testBit (taskIndex % 32)

/-- The bit that stands for a completed task in the word it belongs to. -/
def MaskState.completed (taskIndex : ℕ) : Bool :=
  (masks.completedWord taskIndex).testBit (taskIndex % 32)

/-- The bit of a task. -/
theorem taskMask_eq (taskIndex : ℕ) : taskMask taskIndex = 2 ^ (taskIndex % 32) := by
  rw [taskMask, Nat.one_shiftLeft, show (31 : ℕ) = 2 ^ 5 - 1 by rfl,
    Nat.and_two_pow_sub_one_eq_mod]

/-- A task is in the low word if it is one of the first 32. -/
theorem shiftRight_five_eq_zero {taskIndex : ℕ} : taskIndex >>> 5 = 0 ↔ taskIndex < 32 := by
  rw [Nat.shiftRight_eq_div_pow]
  omega

/-- Tasks in the same word have different bits. -/
theorem testBit_taskMask {taskIndex i : ℕ} (hword : taskIndex < 32 ↔ i < 32)
    (htask : taskIndex < kMaximumTasks) (hi : i < kMaximumTasks) :
    (taskMask taskIndex).testBit (i % 32) = decide (i = taskIndex) := by
  have hlt : taskIndex < 64 := htask
  have hlt' : i < 64 := hi
  rw [taskMask_eq, Nat.testBit_two_pow, decide_eq_decide]
  omega

section Words

variable {masks : MaskState} {taskIndex i : ℕ}

/-- Claiming a task sets its bit and no other. -/
theorem MaskState.claimed_orClaimed (htask : taskIndex < kMaximumTasks) (hi : i < kMaximumTasks) :
    (masks.orClaimed taskIndex).claimed i = (masks.claimed i || decide (i = taskIndex)) := by
  simp only [claimed, orClaimed, claimedWord, shiftRight_five_eq_zero]
  by_cases hlow : taskIndex < 32 <;> by_cases hilow : i < 32 <;>
    simp only [hlow, hilow, if_true, if_false, Nat.testBit_or]
  · rw [testBit_taskMask (by omega) htask hi]
  · rw [decide_eq_false (by omega), Bool.or_false]
  · rw [decide_eq_false (by omega), Bool.or_false]
  · rw [testBit_taskMask (by omega) htask hi]

/-- Completing a task sets its bit and no other. -/
theorem MaskState.completed_orCompleted (htask : taskIndex < kMaximumTasks)
    (hi : i < kMaximumTasks) :
    (masks.orCompleted taskIndex).completed i = (masks.completed i || decide (i = taskIndex)) := by
  simp only [completed, orCompleted, completedWord, shiftRight_five_eq_zero]
  by_cases hlow : taskIndex < 32 <;> by_cases hilow : i < 32 <;>
    simp only [hlow, hilow, if_true, if_false, Nat.testBit_or]
  · rw [testBit_taskMask (by omega) htask hi]
  · rw [decide_eq_false (by omega), Bool.or_false]
  · rw [decide_eq_false (by omega), Bool.or_false]
  · rw [testBit_taskMask (by omega) htask hi]

/-- Claiming a task leaves the completed words and the counter alone. -/
theorem MaskState.orClaimed_eq (masks : MaskState) (taskIndex : ℕ) :
    (masks.orClaimed taskIndex).completedMask = masks.completedMask ∧
    (masks.orClaimed taskIndex).completedMaskHigh = masks.completedMaskHigh ∧
    (masks.orClaimed taskIndex).completedCount = masks.completedCount := by
  unfold orClaimed
  split <;> exact ⟨rfl, rfl, rfl⟩

/-- Completing a task leaves the claimed words and the counter alone. -/
theorem MaskState.orCompleted_eq (masks : MaskState) (taskIndex : ℕ) :
    (masks.orCompleted taskIndex).claimedMask = masks.claimedMask ∧
    (masks.orCompleted taskIndex).claimedMaskHigh = masks.claimedMaskHigh ∧
    (masks.orCompleted taskIndex).completedCount = masks.completedCount := by
  unfold orCompleted
  split <;> exact ⟨rfl, rfl, rfl⟩

@[simp] theorem MaskState.completed_orClaimed :
    (masks.orClaimed taskIndex).completed i = masks.completed i := by
  obtain ⟨hlow, hhigh, -⟩ := masks.orClaimed_eq taskIndex
  simp only [completed, completedWord, hlow, hhigh]

@[simp] theorem MaskState.claimed_orCompleted :
    (masks.orCompleted taskIndex).claimed i = masks.claimed i := by
  obtain ⟨hlow, hhigh, -⟩ := masks.orCompleted_eq taskIndex
  simp only [claimed, claimedWord, hlow, hhigh]

/-- The low completed word stays a word of 32 bits. -/
theorem MaskState.completedMask_orCompleted_lt (h : masks.completedMask < 2 ^ 32) :
    (masks.orCompleted taskIndex).completedMask < 2 ^ 32 := by
  unfold orCompleted
  split
  · refine Nat.or_lt_two_pow h ?_
    rw [taskMask_eq]
    exact Nat.pow_lt_pow_right (by norm_num) (Nat.mod_lt _ (by norm_num))
  · exact h

/-- The bit of a task in the two words that `load_completed_mask` puts together. -/
theorem testBit_two_words {low high : ℕ} (hlow : low < 2 ^ 32) (i : ℕ) :
    (low ||| high <<< 32).testBit i = if i < 32 then low.testBit i else high.testBit (i - 32) := by
  rw [Nat.testBit_or, Nat.testBit_shiftLeft]
  split
  · rename_i h
    simp [show ¬32 ≤ i by omega]
  · rename_i h
    have hout : low.testBit i = false :=
      Nat.testBit_lt_two_pow (hlow.trans_le (Nat.pow_le_pow_right (by norm_num) (by omega)))
    simp [hout, show 32 ≤ i by omega]

end Words

/-- The test of a single bit. -/
theorem and_two_pow_eq_zero {mask bit : ℕ} : mask &&& 2 ^ bit = 0 ↔ mask.testBit bit = false := by
  constructor
  · intro h
    have hbit := congrArg (fun m => m.testBit bit) h
    simpa [Nat.testBit_two_pow_self] using hbit
  · intro h
    apply Nat.eq_of_testBit_eq
    intro i
    by_cases heq : bit = i
    · simp [← heq, h]
    · simp [Nat.testBit_two_pow_of_ne heq]

/-- A test of dependencies against a mask looks at every bit. -/
theorem and_eq_left_iff {dependencies mask : ℕ} : dependencies &&& mask = dependencies ↔
    ∀ i, dependencies.testBit i = true → mask.testBit i = true := by
  constructor
  · intro h i hi
    have hbit := congrArg (fun m => m.testBit i) h
    simpa [hi] using hbit
  · intro h
    apply Nat.eq_of_testBit_eq
    intro i
    cases hi : dependencies.testBit i with
    | false => simp [hi]
    | true => simp [hi, h i hi]

/-- The bits of the mask of all tasks. -/
theorem testBit_allTasksMask {taskCount : ℕ} (i : ℕ) :
    (allTasksMask taskCount).testBit i = decide (i < taskCount) := by
  unfold allTasksMask
  split
  · rename_i h
    rw [h, kMaximumTasks, Nat.testBit_two_pow_sub_one]
  · rw [Nat.one_shiftLeft, Nat.testBit_two_pow_sub_one]

end LightRocm.Graph
