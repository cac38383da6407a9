import LightRocm.Graph.HostValidation

/-!
# Agreement of the two validators

The topological walk of the device makes as many passes as a program has tasks. As
long as some task has not been reached and there is no cycle, there is one that has
not been reached and whose dependencies have, so every pass reaches another task.
Hence the walk finds the programs without cycles, and the device accepts what the
host accepts and has no cycle.
-/

namespace LightRocm.Graph

open Checked Relation

/-- No task of a program depends on itself through others. -/
def ResidentArgs.Acyclic (args : ResidentArgs) (program : Program) : Prop :=
  ∀ t, ¬TransGen (fun t d => t < program.taskCount ∧ args.Depends program t d) t t

section Walk

variable {dependencies : ℕ → ℕ} {taskCount : ℕ} {mask : ℕ}

/-- Task `t` depends on `d`. -/
def Edge (dependencies : ℕ → ℕ) (taskCount t d : ℕ) : Prop :=
  t < taskCount ∧ (dependencies t).testBit d = true

/-- Without cycles, some task that has not been reached depends on reached tasks only. -/
theorem exists_ready (hacyclic : ∀ t, ¬TransGen (Edge dependencies taskCount) t t)
    (hrange : ∀ t < taskCount, ∀ d, (dependencies t).testBit d = true → d < taskCount)
    (hmissing : ∃ t < taskCount, mask.testBit t = false) :
    ∃ t < taskCount, mask.testBit t = false ∧
      ∀ d, (dependencies t).testBit d = true → mask.testBit d = true := by
  let Below (d t : Fin taskCount) : Prop := TransGen (Edge dependencies taskCount) t d
  have htrans : IsTrans (Fin taskCount) Below := ⟨fun _ _ _ hab hbc => hbc.trans hab⟩
  have hirrefl : Std.Irrefl Below := ⟨fun t => hacyclic t⟩
  have hwell : WellFounded Below := Finite.wellFounded_of_trans_of_irrefl Below
  obtain ⟨t, ht, hmask⟩ := hmissing
  obtain ⟨least, hleast, hmin⟩ :=
    hwell.has_min { t : Fin taskCount | mask.testBit t = false } ⟨⟨t, ht⟩, hmask⟩
  refine ⟨least, least.isLt, hleast, fun d hd => ?_⟩
  by_contra hnot
  exact hmin ⟨d, hrange least least.isLt d hd⟩ (Bool.eq_false_iff.mpr hnot)
    (.single ⟨least.isLt, hd⟩)

/-- What the visits of a pass reach. -/
theorem testBit_visits (dependencies : ℕ → ℕ) (tasks : List ℕ) (mask : ℕ) :
    let reached := tasks.foldl (fun reachableMask taskIndex =>
      if reachableMask &&& (1 <<< taskIndex) = 0 ∧
          dependencies taskIndex &&& reachableMask = dependencies taskIndex then
        reachableMask ||| (1 <<< taskIndex)
      else reachableMask) mask
    (∀ i, mask.testBit i = true → reached.testBit i = true) ∧
      (∀ t ∈ tasks, (∀ d, (dependencies t).testBit d = true → mask.testBit d = true) →
        reached.testBit t = true) ∧
      ∀ i, reached.testBit i = true → mask.testBit i = true ∨ i ∈ tasks := by
  induction tasks generalizing mask with
  | nil => exact ⟨fun _ hi => hi, by simp, fun _ hi => Or.inl hi⟩
  | cons task tasks ih =>
    rw [List.foldl_cons]
    -- the mask after the first visit
    set visited := if mask &&& (1 <<< task) = 0 ∧ dependencies task &&& mask = dependencies task
      then mask ||| (1 <<< task) else mask with hvisited
    have hkeep : ∀ i, mask.testBit i = true → visited.testBit i = true := by
      intro i hi
      rw [hvisited]
      split
      · simp [hi]
      · exact hi
    have hnew : ∀ i, visited.testBit i = true → mask.testBit i = true ∨ i = task := by
      intro i hi
      rw [hvisited] at hi
      split at hi
      · rw [Nat.testBit_or, Nat.one_shiftLeft, Nat.testBit_two_pow, Bool.or_eq_true,
          decide_eq_true_eq] at hi
        exact hi.imp_right Eq.symm
      · exact Or.inl hi
    have hself : (∀ d, (dependencies task).testBit d = true → mask.testBit d = true) →
        visited.testBit task = true := by
      intro hready
      rw [hvisited]
      split
      · simp
      · rename_i hnot
        rw [not_and', Nat.one_shiftLeft, and_two_pow_eq_zero] at hnot
        exact Bool.eq_true_of_not_eq_false (hnot (and_eq_left_iff.mpr hready))
    obtain ⟨hmono, hreach, honly⟩ := ih visited
    refine ⟨fun i hi => hmono i (hkeep i hi), fun t ht hready => ?_, fun i hi => ?_⟩
    · rcases List.mem_cons.mp ht with rfl | ht
      · exact hmono t (hself hready)
      · exact hreach t ht fun d hd => hkeep d (hready d hd)
    · rcases honly i hi with hi | hi
      · refine (hnew i hi).imp_right fun heq => ?_
        rw [heq]
        exact List.mem_cons_self
      · exact Or.inr (List.mem_cons_of_mem _ hi)

/-- The tasks in a mask. -/
def reached (taskCount mask : ℕ) : Finset ℕ :=
  (Finset.range taskCount).filter fun t => mask.testBit t = true

/-- Without cycles a pass reaches another task, if there is one. -/
theorem card_reached_pass (hacyclic : ∀ t, ¬TransGen (Edge dependencies taskCount) t t)
    (hrange : ∀ t < taskCount, ∀ d, (dependencies t).testBit d = true → d < taskCount)
    (hless : (reached taskCount mask).card < taskCount) :
    (reached taskCount mask).card <
      (reached taskCount (reachablePass dependencies taskCount mask)).card := by
  have hmissing : ∃ t < taskCount, mask.testBit t = false := by
    by_contra hnone
    push Not at hnone
    have hall : reached taskCount mask = Finset.range taskCount :=
      Finset.filter_true_of_mem fun t ht =>
        Bool.eq_true_of_not_eq_false (hnone t (Finset.mem_range.mp ht))
    rw [hall, Finset.card_range] at hless
    exact lt_irrefl _ hless
  obtain ⟨t, ht, hmask, hready⟩ := exists_ready hacyclic hrange hmissing
  obtain ⟨hmono, hreach, -⟩ := testBit_visits dependencies (List.range taskCount) mask
  refine Finset.card_lt_card (Finset.ssubset_iff_of_subset ?_ |>.mpr ⟨t, ?_, ?_⟩)
  · intro i hi
    obtain ⟨hlt, hbit⟩ := Finset.mem_filter.mp hi
    exact Finset.mem_filter.mpr ⟨hlt, hmono i hbit⟩
  · exact Finset.mem_filter.mpr ⟨Finset.mem_range.mpr ht, hreach t (List.mem_range.mpr ht) hready⟩
  · intro hmem
    exact absurd ((Finset.mem_filter.mp hmem).2.symm.trans hmask) (by rintro ⟨⟩)

/-- Without cycles the walk reaches every task. -/
theorem reachableTasks_eq (hacyclic : ∀ t, ¬TransGen (Edge dependencies taskCount) t t)
    (hrange : ∀ t < taskCount, ∀ d, (dependencies t).testBit d = true → d < taskCount) :
    reachableTasks dependencies taskCount = allTasksMask taskCount := by
  have hpasses : ∀ (passes : List ℕ) (mask : ℕ), (∀ i, mask.testBit i = true → i < taskCount) →
      let last := passes.foldl (fun mask _ => reachablePass dependencies taskCount mask) mask
      min taskCount ((reached taskCount mask).card + passes.length) ≤ (reached taskCount last).card ∧
        ∀ i, last.testBit i = true → i < taskCount := by
    intro passes
    induction passes with
    | nil =>
      intro mask hmask
      exact ⟨min_le_right _ _, hmask⟩
    | cons pass passes ih =>
      intro mask hmask
      obtain ⟨hmono, -, honly⟩ := testBit_visits dependencies (List.range taskCount) mask
      obtain ⟨hcard, hlast⟩ := ih (reachablePass dependencies taskCount mask) fun i hi =>
        (honly i hi).elim (hmask i) List.mem_range.mp
      refine ⟨le_trans ?_ hcard, hlast⟩
      rw [List.length_cons]
      by_cases hless : (reached taskCount mask).card < taskCount
      · have hmore := card_reached_pass hacyclic hrange hless
        omega
      · have hkept : (reached taskCount mask).card ≤
            (reached taskCount (reachablePass dependencies taskCount mask)).card := by
          refine Finset.card_le_card fun i hi => ?_
          obtain ⟨hlt, hbit⟩ := Finset.mem_filter.mp hi
          exact Finset.mem_filter.mpr ⟨hlt, hmono i hbit⟩
        omega
  obtain ⟨hcard, honly⟩ := hpasses (List.range taskCount) 0 (by simp)
  rw [List.length_range, min_eq_left (Nat.le_add_left _ _)] at hcard
  have hfull : reached taskCount (reachableTasks dependencies taskCount) = Finset.range taskCount :=
    Finset.eq_of_subset_of_card_le (Finset.filter_subset _ _)
      ((Finset.card_range taskCount).trans_le hcard)
  refine Nat.eq_of_testBit_eq fun i => ?_
  rw [testBit_allTasksMask, Bool.eq_iff_iff, decide_eq_true_eq]
  refine ⟨honly i, fun hi => ?_⟩
  rw [← Finset.mem_range, ← hfull] at hi
  exact (Finset.mem_filter.mp hi).2

/-- A task that can be reached is in no cycle. -/
theorem not_transGen_of_acc {r : ℕ → ℕ → Prop} {t : ℕ} (h : Acc (fun d t => r t d) t) :
    ¬TransGen r t t := by
  have hacc := h.transGen
  clear h
  induction hacc with
  | intro t _ ih =>
    intro hcycle
    exact ih t (transGen_swap.mp hcycle) hcycle

end Walk

/-- The words of a task. -/
structure Task.Words (task : Task) : Prop where
  dependencyMask_lt : task.dependencyMask < 2 ^ 32
  dependencyMaskHigh_lt : task.dependencyMaskHigh < 2 ^ 32

section Agreement

variable {tasks : List Task} {programs : List Program} {config : ResidentConfig}
  {workload : Workload} {args : ResidentArgs} {program : Program} {state : State}

/-- Two words of dependencies are a word of 64 bits. -/
theorem Task.Words.dependencies_lt {task : Task} (h : task.Words) :
    taskDependencies task < 2 ^ 64 := by
  refine Nat.or_lt_two_pow (h.dependencyMask_lt.trans (by norm_num)) ?_
  have hhigh := h.dependencyMaskHigh_lt
  rw [Nat.shiftLeft_eq]
  omega

/-- The dependencies of a task in range are tasks of its program. -/
theorem TaskInRange.lt_of_depends {index d : ℕ} (h : TaskInRange tasks program index)
    (hwords : ∀ task ∈ tasks, task.Words) (hle : program.taskCount ≤ kMaximumTasks)
    (hd : (taskDependencies (tasks.getD (program.taskOffset + index) {})).testBit d = true) :
    d < program.taskCount := by
  have hword : (tasks.getD (program.taskOffset + index) {}).Words := by
    by_cases hlt : program.taskOffset + index < tasks.length
    · rw [List.getD_eq_getElem _ _ hlt]
      exact hwords _ (List.getElem_mem hlt)
    · rw [List.getD_eq_default _ _ (not_lt.mp hlt)]
      exact ⟨by decide, by decide⟩
  have hmask : allTasksMask program.taskCount < 2 ^ 64 := by
    refine Nat.lt_pow_two_of_testBit _ fun i hi => ?_
    have hle' : program.taskCount ≤ 64 := hle
    rw [testBit_allTasksMask, decide_eq_false (by omega)]
  by_contra hge
  have hlt : d < 64 := by
    by_contra hwide
    rw [Nat.testBit_lt_two_pow (hword.dependencies_lt.trans_le
      (Nat.pow_le_pow_right (by norm_num) (not_lt.mp hwide)))] at hd
    cases hd
  have hbit := congrArg (fun word => word.testBit d) h.1
  rw [Nat.sub_sub, Nat.add_comm 1] at hbit
  simp only [Nat.testBit_and, hd, Nat.testBit_two_pow_sub_succ hmask, testBit_allTasksMask,
    decide_eq_true hlt, decide_eq_false hge, Nat.zero_testBit] at hbit
  cases hbit

/-- The walk accepts a program in range exactly if it has no cycle. -/
theorem reachableTasks_eq_iff (hwords : ∀ task ∈ args.tasks, task.Words)
    (hle : program.taskCount ≤ kMaximumTasks)
    (hrange : ∀ index < program.taskCount, TaskInRange args.tasks program index) :
    reachableTasks (args.dependencies program) program.taskCount = allTasksMask program.taskCount ↔
      args.Acyclic program := by
  constructor
  · intro heq t hcycle
    have hwalked := walked_reachableTasks (args.dependencies program) program.taskCount
    rw [heq] at hwalked
    obtain ⟨d, ⟨ht, hd⟩, -⟩ := (TransGen.head'_iff).mp hcycle
    have hacc := (hwalked t (by simpa [testBit_allTasksMask] using ht)).2
    have hedges : ∀ t d, t < program.taskCount ∧ args.Depends program t d →
        (args.dependencies program t).testBit d = true := fun _ _ hedge => hedge.2
    exact not_transGen_of_acc hacc (TransGen.mono hedges _ _ hcycle)
  · intro hacyclic
    exact reachableTasks_eq hacyclic fun t ht d hd =>
      (hrange t ht).lt_of_depends hwords hle hd

/-- The tables of a graph, with the counts of the executor. -/
def uploadedArgs (tasks : List Task) (programs : List Program) (config : ResidentConfig) :
    ResidentArgs where
  tasks := tasks
  programs := programs
  phaseStateCount := config.phaseStateCount

/-- A state that `initialize` uploads passes the first checks of the device. -/
theorem admitted_iff {programIndex maxSteps stopValue : ℕ}
    (hpos : 0 < config.phaseStateCount) (hworkers : 0 < config.workerCount)
    (hle : config.workerCount ≤ kMaximumResidentWorkers)
    (hstate : initialState config programs.length programIndex maxSteps stopValue = .ok state) :
    Admitted workload (uploadedArgs tasks programs config) state ↔
      tasks ≠ [] ∧ programs ≠ [] ∧ programs.length ≤ kMaximumPrograms ∧
        workload.validContext state = true := by
  simp only [initialState, after_refuse_eq_ok] at hstate
  obtain ⟨hindex, hsteps, hstate⟩ := hstate
  obtain rfl := Except.ok.inj hstate
  simp only [Admitted, uploadedArgs, ne_eq, List.length_eq_zero_iff]
  constructor
  · rintro ⟨-, hprograms, htasks, hcount, -, -, -, -, -, -, hcontext⟩
    exact ⟨htasks, hprograms, hcount, hcontext⟩
  · rintro ⟨htasks, hprograms, hcount, hcontext⟩
    have hlt : programIndex < kMaximumPrograms := (not_le.mp hindex).trans_le hcount
    refine ⟨trivial, hprograms, htasks, hcount, ?_, ?_, hsteps, hpos.ne', hworkers.ne', hle, hcontext⟩
    · rw [phaseProgram_makePhase hlt]
      exact not_le.mp hindex
    · rw [phaseGeneration_makePhase hlt, Nat.zero_mod]
      exact hpos

/-- The device accepts the tables of a graph and a state that `initialize` uploads exactly if the
host accepts the tables, they have no cycle and the workload has no objection. It reads no task
outside the table. -/
theorem device_accepts_iff {programIndex maxSteps stopValue : ℕ} {others : List Task}
    {otherPrograms : List Program} {graph : ValidatedGraph}
    (hconstructed : validateResidentGraph others otherPrograms config = .ok graph)
    (hstate : initialState config programs.length programIndex maxSteps stopValue = .ok state)
    (hcount : tasks.length < 2 ^ 32) (hwords : ∀ task ∈ tasks, task.Words) :
    checkPrograms workload (uploadedArgs tasks programs config) state =
        .ok (validatePrograms workload (uploadedArgs tasks programs config) state) ∧
      (validatePrograms workload (uploadedArgs tasks programs config) state = true ↔
        (∃ graph, validateResidentGraph tasks programs config = .ok graph) ∧
        (∀ program ∈ programs, (uploadedArgs tasks programs config).Acyclic program) ∧
        workload.validContext state = true ∧
        ∀ program ∈ programs, ∀ index < program.taskCount, workload.validTask
          ((uploadedArgs tasks programs config).task (program.taskOffset + index)) = true) := by
  refine ⟨checkPrograms_eq, ?_⟩
  have hconfig := validateResidentGraph_eq_ok.mp ⟨graph, hconstructed⟩
  rw [validatePrograms_iff, admitted_iff hconfig.phaseStateCount_pos hconfig.workerCount_pos
    hconfig.workerCount_le hstate, validateResidentGraph_eq_ok]
  constructor
  · rintro ⟨⟨htasks, hprograms, hle, hcontext⟩, hall⟩
    have hparts := fun program hmem => validateProgram_iff.mp (hall program hmem)
    refine ⟨⟨htasks, by omega, hprograms, hle, hconfig.phaseStateCount_pos,
      hconfig.phaseStateCount_le, hconfig.workerCount_pos, hconfig.workerCount_le,
      fun program hmem => (hparts program hmem).1, fun program hmem => (hparts program hmem).2.1⟩,
      fun program hmem => ?_, hcontext, fun program hmem => (hparts program hmem).2.2.1⟩
    obtain ⟨hrange, htasksInRange, -, hwalk⟩ := hparts program hmem
    exact (reachableTasks_eq_iff hwords hrange.taskCount_le htasksInRange).mp hwalk
  · rintro ⟨hhost, hacyclic, hcontext, hworkload⟩
    refine ⟨⟨hhost.tasks_ne, hhost.programs_ne, hhost.programs_le, hcontext⟩,
      fun program hmem => validateProgram_iff.mpr ⟨hhost.inRange program hmem,
        hhost.tasksInRange program hmem, hworkload program hmem, ?_⟩⟩
    exact (reachableTasks_eq_iff hwords (hhost.inRange program hmem).taskCount_le
      (hhost.tasksInRange program hmem)).mpr (hacyclic program hmem)

end Agreement

/-- A workload that accepts everything. -/
def acceptAll : Workload where
  validContext _ := true
  validTask _ := true
  execute _ _ := .done

/-- Two tasks, one after the other. -/
def twoTasks : List Task := [{}, { dependencyMask := 1 }]

/-- One program of two tasks. -/
def oneProgram : List Program := [{ taskCount := 2, flags := 1 }]

/-- The device accepts two tasks in a row, since the host does and there is no cycle. -/
theorem device_accepts_two_tasks :
    ∃ state, initialState ⟨4, 2⟩ 1 0 10 0 = .ok state ∧
      (validatePrograms acceptAll (uploadedArgs twoTasks oneProgram ⟨4, 2⟩) state = true ↔
        (∃ graph, validateResidentGraph twoTasks oneProgram ⟨4, 2⟩ = .ok graph) ∧
        (∀ program ∈ oneProgram, (uploadedArgs twoTasks oneProgram ⟨4, 2⟩).Acyclic program) ∧
        acceptAll.validContext state = true ∧
        ∀ program ∈ oneProgram, ∀ index < program.taskCount, acceptAll.validTask
          ((uploadedArgs twoTasks oneProgram ⟨4, 2⟩).task (program.taskOffset + index)) = true) ∧
      validatePrograms acceptAll (uploadedArgs twoTasks oneProgram ⟨4, 2⟩) state = true := by
  have hconstructed : validateResidentGraph twoTasks oneProgram ⟨4, 2⟩ = .ok ⟨64, 32, 80⟩ := rfl
  have hstate : initialState ⟨4, 2⟩ oneProgram.length 0 10 0 =
      .ok { phase := makePhase 0 0, maxSteps := 10, workerCount := 2 } := rfl
  refine ⟨_, hstate, (device_accepts_iff hconstructed hstate (by decide) ?_).2, by decide⟩
  intro task hmem
  simp only [twoTasks, List.mem_cons, List.not_mem_nil, or_false] at hmem
  rcases hmem with rfl | rfl <;> exact ⟨by decide, by decide⟩

end LightRocm.Graph
