import LightRocm.Graph.PlanCompilation

/-!
# The compiled plan is valid and shortest

A plan of greedy stages passes the validation of the host and of the device. Any
other valid plan falls behind it stage by stage, so that it has at least as many stages.
-/

namespace LightRocm.Graph

open Checked

section Valid

variable {args : ResidentArgs} {p programCount : ℕ}

/-- The device's walk over greedy stages. -/
theorem validateStages_of_greedy (hsmall : (args.program p).taskCount ≤ kMaximumTasks)
    {before after : List Stage} {counts : List ℕ} {i start mask : ℕ}
    (hmask : ∀ t, mask.testBit t = decide (t < start))
    (hstages : args.stages =
      before ++ stagesFrom (args.program p).taskOffset start counts ++ after)
    (hindex : (args.compiled p).stageOffset + i = before.length)
    (hgreedy : Greedy (dependenciesOf args.tasks (args.program p)) (args.program p).taskCount start
      counts) :
    validateStages args p counts.length i ((args.program p).taskOffset + start) mask = true := by
  induction counts generalizing before i start mask with
  | nil =>
    rw [List.length_nil, validateStages, decide_eq_true_eq, show start = _ from hgreedy]
  | cons count counts ih =>
    obtain ⟨hpos, hle, hready, -, hrest⟩ := hgreedy
    have hstage : args.stage p i = ⟨(args.program p).taskOffset + start, count⟩ := by
      rw [ResidentArgs.stage, hindex, hstages, stagesFrom]
      simp
    have hshift : args.stages = before ++ [⟨(args.program p).taskOffset + start, count⟩] ++
        stagesFrom (args.program p).taskOffset (start + count) counts ++ after := by
      simp [hstages, stagesFrom]
    have hnext := ih (i := i + 1) (fun t => testBit_stageMask hmask (hle.trans hsmall)) hshift
      (by rw [List.length_append, List.length_singleton, ← hindex, Nat.add_assoc]) hrest
    simp only [List.length_cons, validateStages, hstage, Nat.add_sub_cancel_left, Bool.and_eq_true,
      decide_eq_true_eq, List.all_eq_true, List.mem_range]
    refine ⟨⟨⟨⟨hpos.ne', trivial⟩, by omega⟩, fun j hj => ?_⟩, by rwa [Nat.add_assoc]⟩
    rw [Nat.add_assoc]
    exact (and_eq_left_iff_below hmask).mpr (hready (start + j) (by omega) (by omega))

/-- A program with greedy stages is accepted. -/
theorem validateCompiled_of_greedy
    (hrange : ProgramInRange args.tasks programCount (args.program p))
    (h : GreedyProgram args.tasks args.stages (args.program p) (args.compiled p)) :
    validateCompiled args p = true := by
  obtain ⟨before, counts, after, hstages, hcompiled, hgreedy⟩ := h
  have hpos := hrange.taskCount_pos
  have hcount : counts.length ≠ 0 := by
    rintro hzero
    rw [List.length_eq_zero_iff.mp hzero] at hgreedy
    exact hpos.ne (show 0 = _ from hgreedy)
  have hlength : args.stages.length = before.length + counts.length + after.length := by
    rw [hstages, List.length_append, List.length_append, length_stagesFrom]
  simp only [validateCompiled, hcompiled, hlength, Bool.and_eq_true, decide_eq_true_eq]
  refine ⟨⟨⟨hcount, by omega⟩, by omega⟩, ?_⟩
  have hnone : ∀ t, Nat.testBit 0 t = decide (t < 0) := by simp
  exact validateStages_of_greedy hrange.taskCount_le hnone hstages
    (by rw [hcompiled, Nat.add_zero]) hgreedy

end Valid

section Host

variable {tasks : List Task} {program : Program} {programCount : ℕ} {stages : List Stage}
  {compiled : CompiledProgram} {remaining i start mask : ℕ}

/-- What the host has checked of a stage, and how it goes on. -/
theorem validateHostStages_succ_eq_ok (hrange : ProgramInRange tasks programCount program)
    (htasks : tasks.length < 2 ^ 32) (hmask : ∀ t, mask.testBit t = decide (t < start))
    (hstart : start ≤ program.taskCount)
    (h : validateHostStages tasks program stages compiled (remaining + 1) i
      (program.taskOffset + start) mask = .ok ()) :
    ∃ count, start + count ≤ program.taskCount ∧
      (∀ t, start ≤ t → t < start + count → Below (dependenciesOf tasks program t) start) ∧
      ∃ mask', (∀ t, mask'.testBit t = decide (t < start + count)) ∧
        validateHostStages tasks program stages compiled remaining (i + 1)
          (program.taskOffset + (start + count)) mask' = .ok () := by
  have hoffset := hrange.offset_le
  have hend := hrange.end_le
  have hsmall : program.taskCount ≤ 64 := hrange.taskCount_le
  have hcount : (program.taskOffset + start + 2 ^ 32 - program.taskOffset) % 2 ^ 32 = start := by
    omega
  have hleft : (program.taskCount + 2 ^ 32 - start) % 2 ^ 32 = program.taskCount - start := by
    omega
  rw [validateHostStages, bind_eq_ok] at h
  obtain ⟨stage, -, h⟩ := h
  simp only [hcount, hleft] at h
  obtain ⟨hpass, h⟩ := after_refuse_eq_ok.mp h
  obtain ⟨_, hready, h⟩ := bind_eq_ok.mp h
  obtain ⟨stageMask, hfull, h⟩ := bind_eq_ok.mp h
  obtain ⟨shifted, hshift, h⟩ := bind_eq_ok.mp h
  simp only [not_or, not_lt, ne_eq, not_not] at hpass
  obtain ⟨hpos, hsame, hfits⟩ := hpass
  rw [validTaskMask_eq (by rw [kMaximumTasks]; omega)] at hfull
  rw [shiftLeft, if_pos (by omega)] at hshift
  obtain rfl := Except.ok.inj hfull
  obtain rfl := Except.ok.inj hshift
  refine ⟨stage.taskCount, by omega, fun t hle hlt => ?_, _,
    fun t => testBit_stageMask hmask (by rw [kMaximumTasks]; omega), ?_⟩
  · have hround := forM_eq_ok.mp hready (t - start) (List.mem_range.mpr (by omega))
    have hindex : (stage.taskOffset + (t - start)) % 2 ^ 32 = program.taskOffset + t := by omega
    rw [hindex, readAt_eq {} (by omega), ok_bind, refuse_eq_ok, not_not] at hround
    exact (and_eq_left_iff_below hmask).mp hround
  · have hnext : (program.taskOffset + start + stage.taskCount) % 2 ^ 32 =
        program.taskOffset + (start + stage.taskCount) := by omega
    rwa [hnext] at h

/-- Another valid plan has at least as many stages: it has not got further than the greedy one. -/
theorem Greedy.length_le_of_valid (hrange : ProgramInRange tasks programCount program)
    (htasks : tasks.length < 2 ^ 32) {counts : List ℕ} {other : ℕ}
    (hgreedy : Greedy (dependenciesOf tasks program) program.taskCount other counts)
    (hmask : ∀ t, mask.testBit t = decide (t < start)) (hle : start ≤ other)
    (h : validateHostStages tasks program stages compiled remaining i
      (program.taskOffset + start) mask = .ok ()) : counts.length ≤ remaining := by
  have hoffset := hrange.offset_le
  have hend := hrange.end_le
  induction counts generalizing other start mask remaining i with
  | nil => exact Nat.zero_le _
  | cons count counts ih =>
    obtain ⟨hpos, hfits, -, hmaximal, hrest⟩ := hgreedy
    cases remaining with
    | zero =>
      rw [validateHostStages, refuse_eq_ok, not_not, Nat.mod_eq_of_lt (by omega)] at h
      omega
    | succ remaining =>
      obtain ⟨size, hsize, hready, mask', hmask', hnext⟩ :=
        validateHostStages_succ_eq_ok hrange htasks hmask (by omega) h
      refine Nat.succ_le_succ (ih hrest hmask' ?_ hnext)
      by_contra hahead
      -- The other plan would have taken the task at which the greedy stage ended.
      refine hmaximal.resolve_left (by omega) fun d hd => ?_
      exact (hready (other + count) (by omega) (by omega) d hd).trans_le hle

/-- The host's walk makes no wrong read and no wide shift, whatever the plan. -/
theorem stopsWith_validateHostStages (hrange : ProgramInRange tasks programCount program)
    (htasks : tasks.length < 2 ^ 32) (hstart : start ≤ program.taskCount)
    (hread : compiled.stageOffset + i + remaining ≤ stages.length) :
    StopsWith Fault.Thrown (validateHostStages tasks program stages compiled remaining i
      (program.taskOffset + start) mask) := by
  have hoffset := hrange.offset_le
  have hend := hrange.end_le
  have hsmall : program.taskCount ≤ 64 := hrange.taskCount_le
  induction remaining generalizing i start mask with
  | zero => exact .refuse trivial
  | succ remaining ih =>
    have hindex : (compiled.stageOffset + i) % 2 ^ 32 < stages.length :=
      (Nat.mod_le _ _).trans_lt (by omega)
    have hcount : (program.taskOffset + start + 2 ^ 32 - program.taskOffset) % 2 ^ 32 = start := by
      omega
    have hleft : (program.taskCount + 2 ^ 32 - start) % 2 ^ 32 = program.taskCount - start := by
      omega
    rw [validateHostStages, readAt_eq default hindex, ok_bind]
    simp only [hcount, hleft]
    refine .after_refuse trivial fun hpass => ?_
    simp only [not_or, not_lt, ne_eq, not_not] at hpass
    obtain ⟨hpos, hsame, hfits⟩ := hpass
    refine .bind (.forM fun taskIndex hmem => ?_) fun _ _ => ?_
    · have hlt := List.mem_range.mp hmem
      rw [readAt_eq {} ((Nat.mod_le _ _).trans_lt (by omega)), ok_bind]
      exact .refuse trivial
    · have hnext : ∀ count, count ≤ program.taskCount - start →
          (program.taskOffset + start + count) % 2 ^ 32 = program.taskOffset + (start + count) := by
        omega
      rw [validTaskMask_eq (by rw [kMaximumTasks]; omega), ok_bind, shiftLeft, if_pos (by omega),
        ok_bind, hnext _ hfits]
      exact ih (by omega) (by omega)

end Host

section Plan

variable {workload : Workload} {state : State} {tasks : List Task} {programs : List Program}
  {config : ResidentConfig} {plan : CompiledPlan}

/-- Every task of a graph comes after the tasks that it depends on. -/
def Topological (tasks : List Task) (programs : List Program) : Prop :=
  ∀ program ∈ programs, ∀ t < program.taskCount, ∀ d,
    (dependenciesOf tasks program t).testBit d = true → d < t

/-- A graph in topological order has no cycle. -/
theorem Topological.acyclic (h : Topological tasks programs) {args : ResidentArgs}
    (htasks : args.tasks = tasks) : ∀ program ∈ programs, args.Acyclic program := by
  intro program hmem t hcycle
  have hlater : ∀ {t d}, Relation.TransGen
      (fun t d => t < program.taskCount ∧ args.Depends program t d) t d → d < t := by
    intro t d hpath
    have hedge : ∀ t d, t < program.taskCount ∧ args.Depends program t d → d < t := by
      rintro t d ⟨ht, hd⟩
      subst htasks
      exact h program hmem t ht d hd
    induction hpath with
    | single hstep => exact hedge _ _ hstep
    | tail _ hstep ih => exact (hedge _ _ hstep).trans ih
  exact lt_irrefl t (hlater hcycle)

/-- The compilation returns a plan, or the graph is not in topological order. -/
theorem compilePrograms_spec (hhost : HostValid tasks programs config) :
    (∃ plan, PlanOf tasks programs plan ∧ compilePrograms tasks programs = .ok plan ∧
      Topological tasks programs) ∨
    (compilePrograms tasks programs =
        .error (.invalidArgument "stateful graph tasks are not in topological stage order") ∧
      ¬Topological tasks programs) := by
  have hnone : PlanOf tasks [] {} := ⟨rfl, Nat.zero_le _, by rintro i program compiled ⟨⟩⟩
  have htasks := hhost.tasks_le
  rcases compilePrograms_cases hnone (by omega)
    (by rw [List.length_nil, Nat.zero_add]; exact hhost.programs_le) hhost.inRange with
    ⟨plan, hplan, hok, htopological⟩ | ⟨herror, program, hmem, t, ht, hlate⟩
  · exact .inl ⟨plan, hplan, hok, htopological⟩
  · exact .inr ⟨herror, fun h => hlate (h program hmem t ht)⟩

/-- The programs of a plan that the compilation returned are accepted. -/
theorem PlanOf.validateCompiled (hplan : PlanOf tasks programs plan)
    (hhost : HostValid tasks programs config) {p : ℕ} (hp : p < programs.length) :
    validateCompiled (plannedArgs tasks programs config plan) p = true := by
  have hcompiled : p < plan.programs.length := hplan.programs_length.symm ▸ hp
  have hprogram : (plannedArgs tasks programs config plan).program p = programs[p] :=
    List.getD_eq_getElem _ _ hp
  have hentry : (plannedArgs tasks programs config plan).compiled p = plan.programs[p] :=
    List.getD_eq_getElem _ _ hcompiled
  have hrange : ProgramInRange tasks programs.length
      ((plannedArgs tasks programs config plan).program p) :=
    hprogram ▸ hhost.inRange _ (List.getElem_mem hp)
  refine validateCompiled_of_greedy hrange ?_
  rw [hprogram, hentry]
  exact hplan.greedy p _ _ (List.getElem?_eq_getElem hp) (List.getElem?_eq_getElem hcompiled)

/-- A compiled plan has stages, and few enough for a word. -/
theorem PlanOf.stages (hplan : PlanOf tasks programs plan)
    (hhost : HostValid tasks programs config) :
    plan.stages.length ≠ 0 ∧ plan.stages.length < 2 ^ 32 := by
  have hfirst := hplan.validateCompiled hhost (List.length_pos_iff.mpr hhost.programs_ne)
  have hle := hplan.stages_le
  have hfew := hhost.programs_le
  simp only [Graph.validateCompiled, Bool.and_eq_true, decide_eq_true_eq, ne_eq] at hfirst
  obtain ⟨⟨⟨hpos, -⟩, hcount⟩, -⟩ := hfirst
  have hstages : (plannedArgs tasks programs config plan).stages = plan.stages := rfl
  rw [hstages] at hcount
  rw [kMaximumTasks] at hle
  rw [kMaximumPrograms] at hfew
  omega

/-- The host accepts a compiled plan. -/
theorem PlanOf.validateCompiledPlan (hplan : PlanOf tasks programs plan)
    (hhost : HostValid tasks programs config) :
    validateCompiledPlan tasks programs plan = .ok () := by
  obtain ⟨hne, hstages⟩ := hplan.stages hhost
  have htasks := hhost.tasks_le
  rw [Graph.validateCompiledPlan, after_refuse_eq_ok, forM_eq_ok]
  refine ⟨?_, fun p hmem => ?_⟩
  · rw [not_or, not_not]
    exact ⟨fun hempty => hne (List.length_eq_zero_iff.mpr hempty), hplan.programs_length⟩
  · have hp := List.mem_range.mp hmem
    have hprogram : (plannedArgs tasks programs config plan).program p ∈ programs := by
      rw [ResidentArgs.program, plannedArgs, List.getD_eq_getElem _ _ hp]
      exact List.getElem_mem hp
    have hrange := hhost.inRange _ hprogram
    have htable : (plannedArgs tasks programs config plan).tasks.length < 2 ^ 32 :=
      (Nat.le_sub_one_iff_lt (by norm_num)).mp htasks
    rw [readAt_eq default hp, ok_bind, readAt_eq default (hplan.programs_length.symm ▸ hp), ok_bind]
    exact (decides_validateHostProgram hrange htable hstages).ok_iff.mpr
      (hplan.validateCompiled hhost hp)

/-- The device accepts a compiled plan, without a wrong read or a wide shift. -/
theorem PlanOf.checkPlan (hplan : PlanOf tasks programs plan)
    (hhost : HostValid tasks programs config) (htopological : Topological tasks programs)
    (hwords : ∀ task ∈ tasks, task.Words) {programIndex maxSteps stopValue : ℕ}
    (hstate : initialState config programs.length programIndex maxSteps stopValue = .ok state)
    (hcontext : workload.validContext state = true)
    (hworkload : ∀ program ∈ programs, ∀ index < program.taskCount,
      workload.validTask (tasks.getD (program.taskOffset + index) {}) = true) :
    checkPlan workload (plannedArgs tasks programs config plan) state = .ok true := by
  obtain ⟨hne, hstages⟩ := hplan.stages hhost
  have htasks := hhost.tasks_le
  rw [checkPlan_eq (show tasks.length < 2 ^ 32 by omega) hstages hplan.programs_length]
  have hacyclic : ∀ program ∈ programs, (plannedArgs tasks programs config plan).Acyclic program :=
    htopological.acyclic rfl
  have hadmitted : Admitted workload (plannedArgs tasks programs config plan) state :=
    (admitted_iff hhost.phaseStateCount_pos hhost.workerCount_pos hhost.workerCount_le hstate).mpr
      ⟨hhost.tasks_ne, hhost.programs_ne, hhost.programs_le, hcontext⟩
  have hprograms : validatePrograms workload (plannedArgs tasks programs config plan) state = true :=
    validatePrograms_iff.mpr ⟨hadmitted, fun program hmem => validateProgram_iff.mpr
      ⟨hhost.inRange program hmem, hhost.tasksInRange program hmem, hworkload program hmem,
        (reachableTasks_eq_iff hwords (hhost.inRange program hmem).taskCount_le
          (hhost.tasksInRange program hmem)).mpr (hacyclic program hmem)⟩⟩
  have hall : (List.range programs.length).all
      (Graph.validateCompiled (plannedArgs tasks programs config plan)) = true :=
    List.all_eq_true.mpr fun p hmem => hplan.validateCompiled hhost (List.mem_range.mp hmem)
  refine congrArg Except.ok ?_
  simp only [validatePlan, Bool.and_eq_true, decide_eq_true_eq]
  exact ⟨⟨hprograms, hne⟩, hall⟩

/-- The host's validation of any plan makes no wrong read and no wide shift. -/
theorem stopsWith_validateCompiledPlan (hhost : HostValid tasks programs config) :
    StopsWith Fault.Thrown (validateCompiledPlan tasks programs plan) := by
  have htasks := hhost.tasks_le
  refine .after_refuse trivial fun hpass => .forM fun p hmem => ?_
  have hp := List.mem_range.mp hmem
  rw [not_or, not_not] at hpass
  rw [readAt_eq default hp, ok_bind, readAt_eq default (hpass.2.symm ▸ hp), ok_bind]
  refine .after_refuse trivial fun hfits => ?_
  have hrange := hhost.inRange _ (List.getD_eq_getElem programs default hp ▸ List.getElem_mem hp)
  exact stopsWith_validateHostStages hrange (by omega) (Nat.zero_le _) (by omega)

/-- A plan that the host accepts has, for each program, at least as many stages as a compiled
one. -/
theorem PlanOf.stageCount_le (hplan : PlanOf tasks programs plan)
    (hhost : HostValid tasks programs config) {other : CompiledPlan}
    (hother : Graph.validateCompiledPlan tasks programs other = .ok ()) {p : ℕ}
    (hp : p < programs.length) :
    (plan.programs.getD p default).stageCount ≤ (other.programs.getD p default).stageCount := by
  have htasks := hhost.tasks_le
  have hcompiled : p < plan.programs.length := hplan.programs_length.symm ▸ hp
  obtain ⟨before, counts, after, -, hentry, hgreedy⟩ := hplan.greedy p _ _
    (List.getElem?_eq_getElem hp) (List.getElem?_eq_getElem hcompiled)
  rw [Graph.validateCompiledPlan, after_refuse_eq_ok, forM_eq_ok, not_or, not_not] at hother
  obtain ⟨⟨-, hlength⟩, hrounds⟩ := hother
  have hround := hrounds p (List.mem_range.mpr hp)
  rw [readAt_eq default hp, ok_bind, readAt_eq default (hlength.symm ▸ hp), ok_bind,
    validateHostProgram, after_refuse_eq_ok] at hround
  have hnone : ∀ t, Nat.testBit 0 t = decide (t < 0) := by simp
  rw [List.getD_eq_getElem _ _ hcompiled, hentry]
  rw [List.getD_eq_getElem _ _ hp] at hround
  exact hgreedy.length_le_of_valid (hhost.inRange _ (List.getElem_mem hp)) (by omega) hnone le_rfl
    hround.2

/-- On a graph that passes the host's validation, the compilation succeeds exactly if every task
comes after its dependencies. It makes no wrong read and no wide shift, and neither does the
validation of a plan. The plan that it builds passes the host's and the device's validation, and
no plan that passes has fewer stages for a program. -/
theorem compile_resident_plan_correct {graph : ValidatedGraph}
    (hvalid : validateResidentGraph tasks programs config = .ok graph)
    (hwords : ∀ task ∈ tasks, task.Words) :
    ((∃ plan, compileResidentPlan tasks programs config = .ok plan) ↔
        ∀ program ∈ programs, ∀ t < program.taskCount, ∀ d,
          (dependenciesOf tasks program t).testBit d = true → d < t) ∧
      StopsWith Fault.Thrown (compileResidentPlan tasks programs config) ∧
      (∀ other, StopsWith Fault.Thrown (validateCompiledPlan tasks programs other)) ∧
      ∀ plan, compilePrograms tasks programs = .ok plan →
        compileResidentPlan tasks programs config = .ok plan ∧
        validateCompiledPlan tasks programs plan = .ok () ∧
        (∀ (workload : Workload) (state : State) (programIndex maxSteps stopValue : ℕ),
          initialState config programs.length programIndex maxSteps stopValue = .ok state →
          workload.validContext state = true →
          (∀ program ∈ programs, ∀ index < program.taskCount,
            workload.validTask (tasks.getD (program.taskOffset + index) {}) = true) →
          checkPlan workload (plannedArgs tasks programs config plan) state = .ok true) ∧
        ∀ other, validateCompiledPlan tasks programs other = .ok () → ∀ p < programs.length,
          (plan.programs.getD p default).stageCount ≤
            (other.programs.getD p default).stageCount := by
  have hhost := validateResidentGraph_eq_ok.mp ⟨graph, hvalid⟩
  have hrun : compileResidentPlan tasks programs config = (do
      let plan ← compilePrograms tasks programs
      validateCompiledPlan tasks programs plan
      return plan) := by
    rw [compileResidentPlan, hvalid, ok_bind]
  rcases compilePrograms_spec hhost with ⟨plan, hplan, hcompile, htopological⟩ | ⟨herror, hnot⟩
  · have hok : compileResidentPlan tasks programs config = .ok plan := by
      rw [hrun, hcompile, ok_bind, hplan.validateCompiledPlan hhost]
      rfl
    refine ⟨⟨fun _ => htopological, fun _ => ⟨plan, hok⟩⟩, ?_,
      fun _ => stopsWith_validateCompiledPlan hhost, ?_⟩
    · rw [hok]
      exact .ok plan
    · intro built hbuilt
      obtain rfl := Except.ok.inj (hcompile.symm.trans hbuilt)
      exact ⟨hok, hplan.validateCompiledPlan hhost,
        fun _ _ _ _ _ hstate hcontext hworkload =>
          hplan.checkPlan hhost htopological hwords hstate hcontext hworkload,
        fun _ hother _ hp => hplan.stageCount_le hhost hother hp⟩
  · have hthrow : compileResidentPlan tasks programs config =
        .error (.invalidArgument "stateful graph tasks are not in topological stage order") := by
      rw [hrun, herror]
      rfl
    refine ⟨⟨?_, fun h => absurd h hnot⟩, ?_, fun _ => stopsWith_validateCompiledPlan hhost, ?_⟩
    · rintro ⟨plan, hok⟩
      exact absurd (hthrow.symm.trans hok) (by rintro ⟨⟩)
    · rw [hthrow]
      rintro e ⟨⟩
      trivial
    · intro plan hok
      exact absurd (herror.symm.trans hok) (by rintro ⟨⟩)

end Plan

/-- Two tasks in a row are compiled into two stages, and no plan has fewer. -/
theorem compile_two_tasks :
    ∃ plan, compileResidentPlan twoTasks oneProgram ⟨4, 2⟩ = .ok plan ∧
      plan.stages = [⟨0, 1⟩, ⟨1, 1⟩] ∧
      ∀ other, validateCompiledPlan twoTasks oneProgram other = .ok () →
        2 ≤ (other.programs.getD 0 default).stageCount := by
  have hvalid : validateResidentGraph twoTasks oneProgram ⟨4, 2⟩ = .ok ⟨64, 32, 80⟩ := rfl
  have hcompile : compilePrograms twoTasks oneProgram = .ok ⟨[⟨0, 1⟩, ⟨1, 1⟩], [⟨0, 2⟩]⟩ := rfl
  have hwords : ∀ task ∈ twoTasks, task.Words := by
    intro task hmem
    simp only [twoTasks, List.mem_cons, List.not_mem_nil, or_false] at hmem
    rcases hmem with rfl | rfl <;> exact ⟨by decide, by decide⟩
  obtain ⟨hok, -, -, hshortest⟩ :=
    (compile_resident_plan_correct hvalid hwords).2.2.2 _ hcompile
  exact ⟨_, hok, rfl, fun other hother => hshortest other hother 0 (by decide)⟩

end LightRocm.Graph
