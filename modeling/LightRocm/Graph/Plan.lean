import LightRocm.Graph.Validation

/-!
# Compiled plans

`validate_plan` of the compiled scheduler. The stages of an accepted program are
runs of its tasks, one after the other, and a task depends on tasks of earlier
stages only.
-/

namespace LightRocm.Graph

variable (args : ResidentArgs)

/-- `compiled_programs[index]`. -/
def ResidentArgs.compiled (index : ℕ) : CompiledProgram :=
  args.compiledPrograms.getD index default

/-- Number of stages of a program. -/
def ResidentArgs.stageCount (args : ResidentArgs) (programIndex : ℕ) : ℕ :=
  (args.compiled programIndex).stageCount

/-- `stages[compiled.stage_offset + stage_index]`. -/
def ResidentArgs.stage (programIndex stageIndex : ℕ) : Stage :=
  args.stages.getD ((args.compiled programIndex).stageOffset + stageIndex) default

/-- The stages of a program from `stageIndex` on, of which `remaining` are left. -/
def validateStages (args : ResidentArgs) (programIndex : ℕ) :
    (remaining stageIndex expectedTaskOffset completedMask : ℕ) → Bool
  | 0, _, expectedTaskOffset, _ =>
    expectedTaskOffset =
      (args.program programIndex).taskOffset + (args.program programIndex).taskCount
  | remaining + 1, stageIndex, expectedTaskOffset, completedMask =>
    let program := args.program programIndex
    let stage := args.stage programIndex stageIndex
    let completedCount := expectedTaskOffset - program.taskOffset
    stage.taskCount ≠ 0 && stage.taskOffset = expectedTaskOffset &&
    stage.taskCount ≤ program.taskCount - completedCount &&
    (List.range stage.taskCount).all (fun taskIndex =>
      taskDependencies (args.task (stage.taskOffset + taskIndex)) &&& completedMask =
        taskDependencies (args.task (stage.taskOffset + taskIndex))) &&
    validateStages args programIndex remaining (stageIndex + 1)
      (expectedTaskOffset + stage.taskCount)
      (completedMask ||| (allTasksMask stage.taskCount <<< completedCount) % 2 ^ 64)

/-- The checks of the stages of one program. -/
def validateCompiled (programIndex : ℕ) : Bool :=
  let compiled := args.compiled programIndex
  compiled.stageCount ≠ 0 && compiled.stageOffset ≤ args.stages.length &&
  compiled.stageCount ≤ args.stages.length - compiled.stageOffset &&
  validateStages args programIndex compiled.stageCount 0 (args.program programIndex).taskOffset 0

/-- `validate_plan`. -/
def validatePlan (workload : Workload) (args : ResidentArgs) (state : State) : Bool :=
  validatePrograms workload args state && args.stages.length ≠ 0 &&
  (List.range args.programs.length).all (validateCompiled args)

/-- Number of tasks of a program before a stage. -/
def ResidentArgs.stageStart (args : ResidentArgs) (programIndex : ℕ) : ℕ → ℕ
  | 0 => 0
  | i + 1 => args.stageStart programIndex i + (args.stage programIndex i).taskCount

/-- What is known of an accepted stage. -/
structure ValidStage (args : ResidentArgs) (p i : ℕ) : Prop where
  taskCount_pos : 0 < (args.stage p i).taskCount
  taskOffset : (args.stage p i).taskOffset = (args.program p).taskOffset + args.stageStart p i
  /-- A task depends on tasks of earlier stages only. -/
  lt_of_depends : ∀ {j t}, j < (args.stage p i).taskCount →
    args.Depends (args.program p) (args.stageStart p i + j) t → t < args.stageStart p i

/-- What is known of the stages of an accepted program. -/
structure ValidStages (args : ResidentArgs) (p : ℕ) : Prop where
  stageCount_pos : 0 < args.stageCount p
  stage : ∀ {i}, i < args.stageCount p → ValidStage args p i
  /-- The stages are made of the tasks of the program. -/
  stageStart_last : args.stageStart p (args.stageCount p) = (args.program p).taskCount

variable {workload : Workload} {args : ResidentArgs} {state : State} {p : ℕ}

/-- The mask of the tasks before a stage, after the stage. -/
theorem testBit_stageMask {mask c n t : ℕ} (hmask : ∀ t, mask.testBit t = decide (t < c))
    (hle : c + n ≤ kMaximumTasks) :
    (mask ||| (allTasksMask n <<< c) % 2 ^ 64).testBit t = decide (t < c + n) := by
  have hlt : c + n ≤ 64 := hle
  rw [Nat.testBit_or, hmask, Nat.testBit_mod_two_pow, Nat.testBit_shiftLeft, testBit_allTasksMask,
    Bool.eq_iff_iff]
  simp only [Bool.or_eq_true, Bool.and_eq_true, decide_eq_true_eq]
  omega

/-- The walk over the stages. -/
theorem validStage_of_validate (hsmall : (args.program p).taskCount ≤ kMaximumTasks)
    {remaining i mask : ℕ} (hmask : ∀ t, mask.testBit t = decide (t < args.stageStart p i))
    (hle : args.stageStart p i ≤ (args.program p).taskCount)
    (h : validateStages args p remaining i ((args.program p).taskOffset + args.stageStart p i)
      mask = true) :
    (∀ k, i ≤ k → k < i + remaining → ValidStage args p k) ∧
      args.stageStart p (i + remaining) = (args.program p).taskCount := by
  induction remaining generalizing i mask with
  | zero =>
    simp only [validateStages, decide_eq_true_eq] at h
    exact ⟨fun k hk hlt => by omega, by rw [Nat.add_zero]; omega⟩
  | succ remaining ih =>
    simp only [validateStages, Bool.and_eq_true, decide_eq_true_eq, List.all_eq_true,
      List.mem_range, ne_eq, Nat.add_sub_cancel_left] at h
    obtain ⟨⟨⟨⟨hpos, hoffset⟩, hfits⟩, hdepends⟩, hrest⟩ := h
    have hstart : args.stageStart p (i + 1) =
        args.stageStart p i + (args.stage p i).taskCount := rfl
    have hnext := ih (i := i + 1)
      (fun t => by rw [hstart]; exact testBit_stageMask hmask (by omega)) (by omega)
      (by rw [hstart, ← Nat.add_assoc]; exact hrest)
    have hfirst : ValidStage args p i := by
      refine ⟨Nat.pos_of_ne_zero hpos, hoffset, fun {j t} hj ht => ?_⟩
      have hbits := and_eq_left_iff.mp (hdepends j hj) t
      rw [hoffset, Nat.add_assoc] at hbits
      simpa [hmask] using hbits ht
    refine ⟨fun k hk hlt => ?_, by rw [show i + (remaining + 1) = i + 1 + remaining by omega]; exact hnext.2⟩
    rcases hk.eq_or_lt with rfl | hk
    · exact hfirst
    · exact hnext.1 k hk (by omega)

/-- The stages of an accepted plan are valid. -/
theorem validStages_of_validate (h : validatePlan workload args state = true)
    (hp : p < args.programs.length) : ValidStages args p := by
  simp only [validatePlan, Bool.and_eq_true, List.all_eq_true, List.mem_range] at h
  obtain ⟨⟨hprograms, -⟩, hcompiled⟩ := h
  have hvalid := (validGraph_of_validate hprograms).program hp
  have hstages := hcompiled p hp
  simp only [validateCompiled, Bool.and_eq_true, decide_eq_true_eq, ne_eq] at hstages
  obtain ⟨⟨⟨hpos, -⟩, -⟩, hwalk⟩ := hstages
  obtain ⟨hstage, hlast⟩ := validStage_of_validate (i := 0) hvalid.taskCount_le
    (fun t => by simp [ResidentArgs.stageStart]) (Nat.zero_le _) hwalk
  rw [Nat.zero_add] at hlast
  refine ⟨Nat.pos_of_ne_zero hpos, fun {i} hi => hstage i i.zero_le ?_, hlast⟩
  rw [Nat.zero_add]
  exact hi

/-- An accepted plan has an accepted graph. -/
theorem validatePrograms_of_validatePlan (h : validatePlan workload args state = true) :
    validatePrograms workload args state = true := by
  simp only [validatePlan, Bool.and_eq_true] at h
  exact h.1.1

/-- What is known of an accepted plan. -/
structure ValidPlan (args : ResidentArgs) (state : State) : Prop where
  graph : ValidGraph args state
  stages : ∀ {p}, p < args.programs.length → ValidStages args p

/-- An accepted plan is valid. -/
theorem validPlan_of_validate (h : validatePlan workload args state = true) :
    ValidPlan args state :=
  ⟨validGraph_of_validate (validatePrograms_of_validatePlan h), validStages_of_validate h⟩

section Start

variable {i j : ℕ}

/-- Later stages start later. -/
theorem stageStart_mono (args : ResidentArgs) (p : ℕ) : Monotone (args.stageStart p) :=
  monotone_nat_of_le_succ fun _ => Nat.le_add_right _ _

/-- A task of a stage is a task of its program. -/
theorem ValidStages.lt_taskCount (h : ValidStages args p) (hi : i < args.stageCount p)
    (hj : j < (args.stage p i).taskCount) :
    args.stageStart p i + j < (args.program p).taskCount := by
  have hmono : args.stageStart p (i + 1) ≤ args.stageStart p (args.stageCount p) :=
    stageStart_mono args p hi
  rw [h.stageStart_last] at hmono
  have hstart : args.stageStart p (i + 1) =
    args.stageStart p i + (args.stage p i).taskCount := rfl
  omega

/-- A program has at least as many tasks as stages. -/
theorem ValidStages.stageCount_le (h : ValidStages args p) :
    args.stageCount p ≤ (args.program p).taskCount := by
  have hstart : ∀ i ≤ args.stageCount p, i ≤ args.stageStart p i := by
    intro i
    induction i with
    | zero => exact fun _ => le_rfl
    | succ i ih =>
      intro hi
      have hpos := (h.stage hi).taskCount_pos
      have hle := ih (by omega)
      change i + 1 ≤ args.stageStart p i + (args.stage p i).taskCount
      omega
  exact (hstart _ le_rfl).trans_eq h.stageStart_last

/-- Every task of a program is one of a stage. -/
theorem ValidStages.exists_stage (h : ValidStages args p) {t : ℕ}
    (ht : t < (args.program p).taskCount) :
    ∃ i j, i < args.stageCount p ∧ j < (args.stage p i).taskCount ∧
      t = args.stageStart p i + j := by
  have hwalk : ∀ n, t < args.stageStart p n →
      ∃ i j, i < n ∧ j < (args.stage p i).taskCount ∧ t = args.stageStart p i + j := by
    intro n
    induction n with
    | zero => exact fun hlt => absurd hlt (Nat.not_lt_zero t)
    | succ n ih =>
      intro hlt
      have hstart : args.stageStart p (n + 1) =
        args.stageStart p n + (args.stage p n).taskCount := rfl
      by_cases hbefore : t < args.stageStart p n
      · obtain ⟨i, j, hi, hrest⟩ := ih hbefore
        exact ⟨i, j, by omega, hrest⟩
      · exact ⟨n, t - args.stageStart p n, by omega, by omega, by omega⟩
  exact hwalk _ (h.stageStart_last ▸ ht)

end Start

end LightRocm.Graph
