import LightRocm.Graph.Agreement
import LightRocm.Graph.PlanOptimality
import LightRocm.Graph.ResidentExecutor

/-!
# From an upload to the result

What the host's validation, the compilation of a plan, the uploads of the executor and the
two schedulers do, put together: a graph that the host accepts and compiles is accepted by
the device as well, and every launch of it ends with the result of the reference.
-/

namespace LightRocm.Graph

open Turns (Fair Reaches after fair_mod)

variable {workload : Workload} {config : ResidentConfig} {tasks : List Task}
  {programs : List Program} {plan : CompiledPlan} {state : State} {memory : Memory}

/-- The device accepts what the host has compiled. -/
theorem validatePlan_of_compiled (hcompiled : compileResidentPlan tasks programs config = .ok plan)
    (hwords : ∀ task ∈ tasks, task.Words) {programIndex maxSteps stopValue : ℕ}
    (hstate : initialState config programs.length programIndex maxSteps stopValue = .ok state)
    (hcontext : workload.validContext state = true)
    (hworkload : ∀ program ∈ programs, ∀ index < program.taskCount,
      workload.validTask (tasks.getD (program.taskOffset + index) {}) = true) :
    validatePlan workload (plannedArgs tasks programs config plan) state = true := by
  obtain ⟨graph, hvalid, hcompiled⟩ := Checked.bind_eq_ok.mp hcompiled
  have hhost := validateResidentGraph_eq_ok.mp ⟨graph, hvalid⟩
  obtain ⟨built, hbuilt, hcompiled⟩ := Checked.bind_eq_ok.mp hcompiled
  obtain ⟨-, -, hcompiled⟩ := Checked.bind_eq_ok.mp hcompiled
  obtain rfl : built = plan := Except.ok.inj hcompiled
  rcases compilePrograms_spec hhost with ⟨other, hplan, hother, htopological⟩ | ⟨herror, -⟩
  · obtain rfl : other = built := Except.ok.inj (hother.symm.trans hbuilt)
    have hcheck := hplan.checkPlan hhost htopological hwords hstate hcontext hworkload
    have htasks := hhost.tasks_le
    rw [checkPlan_eq (show tasks.length < 2 ^ 32 by omega) (hplan.stages hhost).2
      hplan.programs_length] at hcheck
    exact Except.ok.inj hcheck
  · cases herror.symm.trans hbuilt

/-- The turns of a schedule lead to a state in which the launch is over, with the result. -/
def EndsWith {Pc : Type} (result : Result) (ended : Sys Pc → Prop) (step : ℕ → Sys Pc → Sys Pc)
    (schedule : ℕ → ℕ) (s : Sys Pc) : Prop :=
  ∃ n, ended (after step schedule s n) ∧ (after step schedule s n).device.result = result

/-- The reference ends, and both kernels end with its result under every fair schedule. -/
def ComputesReference (workload : Workload) (args : ResidentArgs) (launch : State)
    (memory : Memory) : Prop :=
  ∃ m, (reference workload args launch memory m).state.status.Ended ∧
    ∀ schedule : ℕ → ℕ, Fair (· < launch.workerCount) schedule →
      EndsWith (reference workload args launch memory m).result
        (Dynamic.Over args (Finset.range launch.workerCount)) (Dynamic.step workload args) schedule
        (Dynamic.init launch memory) ∧
      EndsWith (reference workload args launch memory m).result (Compiled.Over launch)
        (Compiled.step workload args) schedule (Compiled.init launch memory)

/-- A launch whose plan the device accepts. -/
theorem computesReference_of_valid {args : ResidentArgs} {launch : State}
    (hplan : validatePlan workload args launch = true) (hready : launch.status = .ready)
    (hcount : args.phaseStateCount ≤ kMaximumPhaseStates)
    (hfree : Separated workload args launch memory) :
    ComputesReference workload args launch memory := by
  have hvalid := validPlan_of_validate hplan
  have hgraph := validatePrograms_of_validatePlan hplan
  have hpos : 0 < launch.workerCount := hvalid.graph.workerCount_pos
  have hcompiled : ∀ schedule : ℕ → ℕ, Fair (· < launch.workerCount) schedule → ∃ m,
      (reference workload args launch memory m).state.status.Ended ∧
      EndsWith (reference workload args launch memory m).result (Compiled.Over launch)
        (Compiled.step workload args) schedule (Compiled.init launch memory) := by
    intro schedule hfair
    obtain ⟨n, hn⟩ := Compiled.exists_allReturned hplan hready hcount hfair
    have hreach : Reaches (Compiled.step workload args) _ _ _ :=
      hfair.reaches (Compiled.init launch memory) n
    have hover := (Compiled.sound_of_reaches hplan hready hcount hreach).over_of_allReturned hpos hn
    obtain ⟨hend, hresult⟩ :=
      (Compiled.tracks_of_reaches hplan hready hcount hfree hreach).result_eq hover.ended
    exact ⟨_, hend, n, hover, hresult⟩
  obtain ⟨m, hm, -⟩ := hcompiled _ (fair_mod hpos)
  refine ⟨m, hm, fun schedule hfair => ⟨?_, ?_⟩⟩
  · have hrange : (fun w => w < launch.workerCount) = (· ∈ Finset.range launch.workerCount) := by
      funext w
      rw [Finset.mem_range]
    have hfair' := hrange ▸ hfair
    have hzero : 0 ∈ Finset.range launch.workerCount := Finset.mem_range.mpr hpos
    obtain ⟨n, hn⟩ := Dynamic.exists_allReturned hgraph hready hcount hzero hfair'
    have hreach : Reaches (Dynamic.step workload args) _ _ _ :=
      hfair'.reaches (Dynamic.init launch memory) n
    have hover :=
      (Dynamic.sound_of_reaches hgraph hready hcount hreach).over_of_allReturned hzero hn
    obtain ⟨hend, hresult⟩ := (Dynamic.tracks_of_reaches hgraph hvalid.stages hready hcount hfree
      hreach).result_eq (by
        rcases hover.status with hstatus | hstatus | hstatus <;> rw [hstatus] <;>
          exact ⟨nofun, nofun⟩)
    exact ⟨n, hover, hresult.trans (by rw [reference_unique hend hm])⟩
  · obtain ⟨m', hm', hends⟩ := hcompiled schedule hfair
    rwa [reference_unique hm hm']

/-- In every run of an executor whose calls are all clean, every launch of a graph with the plan
that the host compiles for it finds control words that are new, and whichever kernel it is, all
its workers return under every fair schedule with the result of the reference. -/
theorem launches_compute_reference {firstPlan : Option CompiledPlan} {outcome : UploadOutcome}
    {session final : Session} {calls : List ExecutorCall} {launch : Launch}
    (hcount : ∀ compiled, firstPlan = some compiled → compiled.stages.length < 2 ^ 32)
    (hcreate : Session.create config tasks programs firstPlan outcome = some session)
    (hrun : Run.Steps Session.step Session.Clean session calls final)
    (hlaunch : launch ∈ final.launches) (hplan : launch.graph.plan = some plan)
    (hcompiled : compileResidentPlan launch.graph.tasks launch.graph.programs config = .ok plan)
    (hwords : ∀ task ∈ launch.graph.tasks, task.Words)
    (hcontext : workload.validContext launch.state = true)
    (hworkload : ∀ program ∈ launch.graph.programs, ∀ index < program.taskCount,
      workload.validTask (launch.graph.tasks.getD (program.taskOffset + index) {}) = true)
    (hfree : Separated workload launch.args launch.state memory) :
    launch.phaseStates = (fun _ => {}) ∧
      ComputesReference workload launch.args launch.state memory := by
  have hsound : final.Sound config := by
    refine hrun.invariant (fun s call t hs hclean hstep => ?_) (Session.sound_create hcount hcreate)
    obtain rfl := Option.some.inj hstep
    exact hs.call hclean
  have hproper := hsound.launches launch hlaunch
  obtain ⟨programIndex, maxSteps, stopValue, hstate⟩ := hproper.state
  have hargs : launch.args =
      plannedArgs launch.graph.tasks launch.graph.programs config plan := by
    rw [hproper.args, UploadedGraph.args, hplan]
    rfl
  have hvalid := validatePlan_of_compiled hcompiled hwords hstate hcontext hworkload
  rw [← hargs] at hvalid
  have hready : launch.state.status = .ready := by
    obtain ⟨-, hstate⟩ := Checked.after_refuse_eq_ok.mp hstate
    obtain ⟨-, hstate⟩ := Checked.after_refuse_eq_ok.mp hstate
    rw [← Except.ok.inj hstate]
  refine ⟨hproper.phaseStates, computesReference_of_valid hvalid hready ?_ hfree⟩
  rw [hargs]
  exact hproper.valid.phaseStateCount_le

/-- The plan that the host compiles for `sums`. -/
def sumsPlan : CompiledPlan := ⟨sums.stages, sums.compiledPrograms⟩

/-- A graph whose third task depends on the two others is uploaded with its plan and launched with
two workers; the reference adds 3 and 4. -/
theorem launches_compute_reference_sums : ∃ session final,
    Session.create ⟨2, 2⟩ sums.tasks sums.programs none {} = some session ∧
    Run.Steps Session.step Session.Clean session
      [.uploadGraph sums.tasks sums.programs (some sumsPlan) {}, .start 0 2 0 none none,
        .launch {} fun _ => {}] final ∧
    compileResidentPlan sums.tasks sums.programs ⟨2, 2⟩ = .ok sumsPlan ∧
    ∃ launch ∈ final.launches, launch.args = sums ∧ launch.state.workerCount = 2 ∧
      (reference adding launch.args launch.state (fun _ => 0) 2).result.memory (.word 2) = 7 ∧
      ComputesReference adding launch.args launch.state fun _ => 0 := by
  have hcompiled : compileResidentPlan sums.tasks sums.programs ⟨2, 2⟩ = .ok sumsPlan := by
    decide +kernel
  obtain ⟨session, final, hcreate, hrun, launch, hlaunch, hgraph, hargs, hworkers, hsum⟩ :
      ∃ session final,
      Session.create ⟨2, 2⟩ sums.tasks sums.programs none {} = some session ∧
      Run.Steps Session.step Session.Clean session
        [.uploadGraph sums.tasks sums.programs (some sumsPlan) {}, .start 0 2 0 none none,
          .launch {} fun _ => {}] final ∧
      ∃ launch ∈ final.launches, launch.graph = ⟨sums.tasks, sums.programs, some sumsPlan⟩ ∧
        launch.args = sums ∧ launch.state.workerCount = 2 ∧
        (reference adding launch.args launch.state (fun _ => 0) 2).result.memory (.word 2) = 7 := by
    refine ⟨_, _, rfl, .cons ⟨rfl, rfl, rfl, ?_⟩ rfl (.cons (fun _ => ⟨rfl, rfl⟩) rfl
      (.cons (fun _ => rfl) rfl (.nil _))), _, List.mem_singleton_self _, rfl, rfl, rfl,
      by decide +kernel⟩
    rintro _ ⟨⟩
    decide
  refine ⟨session, final, hcreate, hrun, hcompiled, launch, hlaunch, hargs, hworkers, hsum,
    And.right (launches_compute_reference (by rintro _ ⟨⟩) hcreate hrun hlaunch (by rw [hgraph])
      (by rw [hgraph]; exact hcompiled) ?_ rfl (fun _ _ _ _ => rfl)
      (by rw [hargs]; exact separated_sums _ _))⟩
  rw [hgraph]
  have hmasks : ∀ task ∈ sums.tasks,
      task.dependencyMask < 2 ^ 32 ∧ task.dependencyMaskHigh < 2 ^ 32 := by decide
  exact fun task hmem => ⟨(hmasks task hmem).1, (hmasks task hmem).2⟩

end LightRocm.Graph
