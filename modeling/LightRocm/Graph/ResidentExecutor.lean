import LightRocm.Graph.Launches
import LightRocm.Graph.PlanCompilation
import LightRocm.Lib.Program
import LightRocm.Lib.Run

/-!
# The resident executor

`ResidentExecutor` of `executor/stateful_graph/resident_executor.hpp`. It replaces its device
buffers one after the other; a copy that fails throws and may leave anything in its buffer. What a
kernel has done to the control words is there for the next call.
-/

namespace LightRocm.Graph

open Turns (Fair after)

/-- How a call of the executor can end without a result. -/
inductive Thrown where
  | fault (fault : Fault)
  /-- A device allocation or a copy has failed. -/
  | device
  /-- `std::logic_error`. -/
  | notInitialized
  deriving DecidableEq

/-- A device buffer: its size in bytes, and the entries that were written to it. -/
structure Table (α : Type) where
  bytes : ℕ
  contents : List α := []

/-- The entries after a copy of some new ones to the start. -/
def Table.store {α : Type} (table : Table α) (values : List α) : Table α :=
  { table with contents := values ++ table.contents.drop values.length }

/-- `ResidentExecutor`. -/
structure ResidentExecutor where
  config : ResidentConfig
  taskBuffer : Table Task
  programBuffer : Table Program
  state : State := {}
  phaseStates : ℕ → MaskState := fun _ => {}
  stageBuffer : Option (Table Stage) := none
  compiledProgramBuffer : Option (Table CompiledProgram) := none
  taskCount : ℕ := 0
  programCount : ℕ := 0
  stageCount : ℕ := 0
  initialized : Bool := false
  /-- An empty `std::optional` was dereferenced. -/
  dereferenced : Bool := false

/-- A call of the executor. -/
abbrev Executing (α : Type) : Type := Fallible ResidentExecutor Thrown α

/-- `copy_to_device`: it succeeds, or it throws and leaves something else. -/
def copyToDevice {β : Type} (outcome : Option β) (value : β)
    (store : β → ResidentExecutor → ResidentExecutor) : Executing Unit := do
  match outcome with
  | none => modify (store value)
  | some left =>
    modify (store left)
    throw .device

/-- Which copies and allocations of an upload fail, and what failed copies leave. -/
structure UploadOutcome where
  tasks : Option (List Task) := none
  programs : Option (List Program) := none
  stageAllocation : Bool := true
  compiledAllocation : Bool := true
  stages : Option (List Stage) := none
  compiledPrograms : Option (List CompiledProgram) := none

/-- The checks of the host, as a call of the executor. -/
def validated {α : Type} (check : Except Fault α) : Executing α :=
  Fallible.ofExcept (check.mapError .fault)

/-- Throw `std::invalid_argument`. -/
def invalid (bad : Prop) [Decidable bad] (message : String) : Executing Unit :=
  if bad then throw (.fault (.invalidArgument message)) else return ()

/-- `upload_graph`. -/
def uploadGraph (tasks : List Task) (programs : List Program) (outcome : UploadOutcome) :
    Executing Unit := do
  let executor ← get
  let graph ← validated (validateResidentGraph tasks programs executor.config)
  invalid (executor.taskBuffer.bytes < graph.taskBytes ∨
      executor.programBuffer.bytes < graph.programBytes)
    "stateful graph exceeds resident executor capacity"
  copyToDevice outcome.tasks tasks fun values executor =>
    { executor with taskBuffer := executor.taskBuffer.store values }
  copyToDevice outcome.programs programs fun values executor =>
    { executor with programBuffer := executor.programBuffer.store values }
  modify fun executor =>
    { executor with
      taskCount := tasks.length
      programCount := programs.length
      stageCount := 0
      initialized := false }

/-- The buffers of a plan: allocated with the first plan, and checked afterwards. -/
def planBuffers (stageBytes compiledProgramBytes : ℕ) (outcome : UploadOutcome) :
    Executing Unit := do
  let executor ← get
  match executor.stageBuffer with
  | none =>
    if outcome.stageAllocation = false then throw .device
    else
      modify fun executor => { executor with stageBuffer := some { bytes := stageBytes } }
      if outcome.compiledAllocation = false then throw .device
      else
        modify fun executor =>
          { executor with compiledProgramBuffer := some { bytes := compiledProgramBytes } }
  | some stages =>
    -- The second operand of the test dereferences the other buffer.
    if stages.bytes < stageBytes then
      throw (.fault (.invalidArgument "compiled plan exceeds resident executor capacity"))
    else
      match executor.compiledProgramBuffer with
      | none =>
        modify fun executor => { executor with dereferenced := true }
        throw .device
      | some compiledPrograms =>
        invalid (compiledPrograms.bytes < compiledProgramBytes)
          "compiled plan exceeds resident executor capacity"

/-- `upload_compiled_plan`. -/
def uploadCompiledPlan (tasks : List Task) (programs : List Program) (plan : CompiledPlan)
    (outcome : UploadOutcome) : Executing Unit := do
  validated (validateCompiledPlan tasks programs plan)
  planBuffers (plan.stages.length * 8) (plan.programs.length * 8) outcome
  copyToDevice outcome.stages plan.stages fun values executor =>
    { executor with stageBuffer := executor.stageBuffer.map (·.store values) }
  copyToDevice outcome.compiledPrograms plan.programs fun values executor =>
    { executor with compiledProgramBuffer := executor.compiledProgramBuffer.map (·.store values) }
  modify fun executor =>
    { executor with stageCount := plan.stages.length % 2 ^ 32, initialized := false }

/-- `initialize`. -/
def initializeState (programIndex maxSteps stopValue : ℕ) (stateCopy : Option State)
    (phaseCopy : Option (ℕ → MaskState)) : Executing Unit := do
  let executor ← get
  let state ← validated
    (initialState executor.config executor.programCount programIndex maxSteps stopValue)
  copyToDevice stateCopy state fun state executor => { executor with state := state }
  copyToDevice phaseCopy (fun _ => {}) fun phaseStates executor =>
    { executor with phaseStates := phaseStates }
  modify fun executor => { executor with initialized := true }

/-- `arguments`: the tables as the kernel finds them. -/
def ResidentExecutor.arguments (executor : ResidentExecutor) : ResidentArgs where
  tasks := executor.taskBuffer.contents.take executor.taskCount
  programs := executor.programBuffer.contents.take executor.programCount
  phaseStateCount := executor.config.phaseStateCount
  stages := ((executor.stageBuffer.map Table.contents).getD []).take executor.stageCount
  compiledPrograms :=
    if executor.stageCount = 0 then []
    else ((executor.compiledProgramBuffer.map Table.contents).getD []).take executor.programCount

/-- A graph whose upload was completed, with its plan if that was. -/
structure UploadedGraph where
  tasks : List Task
  programs : List Program
  plan : Option CompiledPlan

/-- The tables of a graph. -/
def UploadedGraph.args (graph : UploadedGraph) (config : ResidentConfig) : ResidentArgs where
  tasks := graph.tasks
  programs := graph.programs
  phaseStateCount := config.phaseStateCount
  stages := (graph.plan.getD {}).stages
  compiledPrograms := (graph.plan.getD {}).programs

/-- A launch: what the kernel finds, and the graph whose upload was completed last. -/
structure Launch where
  args : ResidentArgs
  state : State
  phaseStates : ℕ → MaskState
  graph : UploadedGraph

/-- An executor in use. -/
structure Session where
  executor : ResidentExecutor
  graph : UploadedGraph
  /-- There was a launch since the last complete initialization. -/
  launched : Bool := false
  launches : List Launch := []

/-- What a kernel finds that is launched now. -/
def Session.next (session : Session) : Launch :=
  ⟨session.executor.arguments, session.executor.state, session.executor.phaseStates, session.graph⟩

/-- A call, with what its copies leave; a launch, with what the kernel leaves. The executor is
started by its member `initialize`. -/
inductive ExecutorCall where
  | uploadGraph (tasks : List Task) (programs : List Program) (plan : Option CompiledPlan)
      (outcome : UploadOutcome)
  | start (programIndex maxSteps stopValue : ℕ) (stateCopy : Option State)
      (phaseCopy : Option (ℕ → MaskState))
  | launch (state : State) (phaseStates : ℕ → MaskState)

/-- The second half of an upload with a plan. -/
def Session.uploadPlan (tasks : List Task) (programs : List Program) (plan : CompiledPlan)
    (outcome : UploadOutcome) (session : Session) : Session :=
  let result := (uploadCompiledPlan tasks programs plan outcome).run session.executor
  match result.1 with
  | .ok _ => { session with executor := result.2, graph := ⟨tasks, programs, some plan⟩ }
  | .error _ => { session with executor := result.2 }

/-- One call. -/
def Session.call (call : ExecutorCall) (session : Session) : Session :=
  match call with
  | .uploadGraph tasks programs plan outcome =>
    let result := (Graph.uploadGraph tasks programs outcome).run session.executor
    match result.1, plan with
    | .error _, _ => { session with executor := result.2 }
    | .ok _, none => { session with executor := result.2, graph := ⟨tasks, programs, none⟩ }
    | .ok _, some plan =>
      { session with executor := result.2, graph := ⟨tasks, programs, none⟩ }.uploadPlan tasks programs
        plan outcome
  | .start programIndex maxSteps stopValue stateCopy phaseCopy =>
    let result :=
      (initializeState programIndex maxSteps stopValue stateCopy phaseCopy).run session.executor
    match result.1 with
    | .ok _ => { session with executor := result.2, launched := false }
    | .error _ => { session with executor := result.2 }
  | .launch state phaseStates =>
    if session.executor.initialized = true then
      { session with
        executor := { session.executor with state := state, phaseStates := phaseStates }
        launched := true
        launches := session.launches ++ [session.next] }
    else session

/-- The constructor: the executor it makes, if it does not throw. -/
def Session.create (config : ResidentConfig) (tasks : List Task) (programs : List Program)
    (plan : Option CompiledPlan) (outcome : UploadOutcome) : Option Session :=
  match validateResidentGraph tasks programs config with
  | .error _ => none
  | .ok graph =>
    let blank : ResidentExecutor :=
      { config := config
        taskBuffer := { bytes := graph.taskBytes }
        programBuffer := { bytes := graph.programBytes } }
    let result := (Graph.uploadGraph tasks programs outcome).run blank
    match result.1, plan with
    | .error _, _ => none
    | .ok _, none => some { executor := result.2, graph := ⟨tasks, programs, none⟩ }
    | .ok _, some plan =>
      let result := (uploadCompiledPlan tasks programs plan outcome).run result.2
      match result.1 with
      | .error _ => none
      | .ok _ => some { executor := result.2, graph := ⟨tasks, programs, some plan⟩ }

/-! ## What a call leaves -/

/-- The optional buffers are there together, and none was dereferenced while it was not there. -/
structure ResidentExecutor.Intact (config : ResidentConfig) (executor : ResidentExecutor) :
    Prop where
  config_eq : executor.config = config
  buffers : executor.stageBuffer.isSome = executor.compiledProgramBuffer.isSome
  dereferenced : executor.dereferenced = false

/-- The tables and their counts are those of one graph that the host has accepted. -/
structure ResidentExecutor.Holds (config : ResidentConfig) (graph : UploadedGraph)
    (executor : ResidentExecutor) : Prop extends executor.Intact config where
  args : executor.arguments = graph.args config
  programCount : executor.programCount = graph.programs.length
  stageCount : executor.stageCount = (graph.plan.getD {}).stages.length
  valid : HostValid graph.tasks graph.programs config

section Calls

open Fallible

variable {config : ResidentConfig} {executor : ResidentExecutor} {tasks : List Task}
  {programs : List Program} {plan : CompiledPlan} {outcome : UploadOutcome}

/-- A table after a copy that succeeded. -/
theorem Table.take_store {α : Type} (table : Table α) (values : List α) :
    (table.store values).contents.take values.length = values :=
  List.take_left

/-- A check of the host changes nothing. -/
theorem ensures_validated {α : Type} (check : Except Fault α) :
    (validated check).Ensures executor (fun a after => check = .ok a ∧ after = executor)
      fun after => after = executor := by
  refine Ensures.ofExcept (fun a h => ?_) fun _ _ => rfl
  cases check with
  | ok value =>
    cases h
    exact ⟨rfl, rfl⟩
  | error fault => cases h

/-- A copy that fails leaves something of the kind it was to store. -/
theorem ensures_copyToDevice {α : Type} {failed : Option α} {value : α}
    {store : α → ResidentExecutor → ResidentExecutor} :
    (copyToDevice failed value store).Ensures executor (fun _ after => after = store value executor)
      fun after => failed ≠ none ∧ ∃ left, after = store left executor := by
  cases failed with
  | none => exact Ensures.modify rfl
  | some left =>
    exact Ensures.seq (Ensures.modify (Ensures.throw ⟨Option.some_ne_none left, left, rfl⟩))

/-- An upload of a graph changes nothing if it fails, unless one of its copies does. -/
theorem ResidentExecutor.Intact.ensures_uploadGraph (h : executor.Intact config) :
    (uploadGraph tasks programs outcome).Ensures executor
      (fun _ after => after.Holds config ⟨tasks, programs, none⟩ ∧ after.initialized = false)
      fun after => outcome.tasks = none → outcome.programs = none → after = executor := by
  refine Ensures.seq (Ensures.get ?_)
  refine Ensures.bind ((ensures_validated _).mono (fun _ _ h => h) fun _ h _ _ => h) ?_
  rintro graph executor ⟨hgraph, rfl⟩
  refine Ensures.seq (Ensures.ite (fun _ => Ensures.throw fun _ _ => rfl) fun _ => Ensures.pure ?_)
  refine Ensures.bind (ensures_copyToDevice.mono (fun _ _ h => h)
    fun _ hfailed htasks => absurd htasks hfailed.1) ?_
  rintro _ _ rfl
  refine Ensures.bind (ensures_copyToDevice.mono (fun _ _ h => h)
    fun _ hfailed _ hprograms => absurd hprograms hfailed.1) ?_
  rintro _ _ rfl
  refine Ensures.modify ⟨⟨⟨h.config_eq, h.buffers, h.dereferenced⟩, ?_, rfl, rfl, ?_⟩, rfl⟩
  · simp only [ResidentExecutor.arguments, UploadedGraph.args, Table.take_store, List.take_zero,
      h.config_eq, if_pos, Option.getD_none]
  · rw [h.config_eq] at hgraph
    exact validateResidentGraph_eq_ok.mp ⟨graph, hgraph⟩

/-- The buffers of a plan are both there, or nothing has changed, unless only the second of them
cannot be allocated. -/
theorem ensures_planBuffers {stageBytes compiledProgramBytes : ℕ}
    (hbuffers : executor.stageBuffer.isSome = executor.compiledProgramBuffer.isSome) :
    (planBuffers stageBytes compiledProgramBytes outcome).Ensures executor
      (fun _ after => ∃ stages compiledPrograms, after = { executor with
        stageBuffer := some stages, compiledProgramBuffer := some compiledPrograms })
      fun after => outcome.compiledAllocation = true → after = executor := by
  refine Ensures.seq (Ensures.get ?_)
  cases hstages : executor.stageBuffer with
  | none =>
    refine Ensures.ite (fun _ => Ensures.throw fun _ => rfl) fun _ => Ensures.seq (Ensures.modify ?_)
    refine Ensures.ite (fun hfalse => Ensures.throw fun htrue => ?_)
      fun _ => Ensures.modify ⟨_, _, rfl⟩
    exact absurd (hfalse.symm.trans htrue) (by decide)
  | some stages =>
    refine Ensures.ite (fun _ => Ensures.throw fun _ => rfl) fun _ => ?_
    cases hcompiled : executor.compiledProgramBuffer with
    | none =>
      rw [hstages, hcompiled] at hbuffers
      cases hbuffers
    | some compiledPrograms =>
      refine Ensures.ite (fun _ => Ensures.throw fun _ => rfl) fun _ => Ensures.pure ?_
      refine ⟨stages, compiledPrograms, ?_⟩
      rw [← hstages, ← hcompiled]

/-- New buffers for a plan do not show as long as there are no stages. -/
theorem ResidentExecutor.Holds.withBuffers (h : executor.Holds config ⟨tasks, programs, none⟩)
    {stages : Option (Table Stage)} {compiledPrograms : Option (Table CompiledProgram)}
    (hbuffers : stages.isSome = compiledPrograms.isSome) :
    ResidentExecutor.Holds config ⟨tasks, programs, none⟩
      { executor with stageBuffer := stages, compiledProgramBuffer := compiledPrograms } := by
  refine ⟨⟨h.config_eq, hbuffers, h.dereferenced⟩, ?_, h.programCount, h.stageCount, h.valid⟩
  have hcount : executor.stageCount = 0 := h.stageCount
  have hargs := h.args
  simp only [ResidentExecutor.arguments, hcount, List.take_zero] at hargs ⊢
  exact hargs

/-- The size of a plan that the host accepts. -/
theorem size_of_validateCompiledPlan (h : validateCompiledPlan tasks programs plan = .ok ()) :
    plan.stages ≠ [] ∧ plan.programs.length = programs.length := by
  have hfirst := (Checked.after_refuse_eq_ok.mp h).1
  push Not at hfirst
  exact hfirst

/-- An upload of a plan sets the number of stages last. -/
theorem ResidentExecutor.Holds.ensures_uploadCompiledPlan
    (h : executor.Holds config ⟨tasks, programs, none⟩) (hunset : executor.initialized = false)
    (hcount : plan.stages.length < 2 ^ 32) :
    (uploadCompiledPlan tasks programs plan outcome).Ensures executor
      (fun _ after => after.Holds config ⟨tasks, programs, some plan⟩ ∧ after.initialized = false)
      fun after => outcome.compiledAllocation = true →
        after.Holds config ⟨tasks, programs, none⟩ ∧ after.initialized = false := by
  refine Ensures.bind ((ensures_validated _).mono (fun _ _ h => h) fun _ hsame _ =>
    hsame ▸ ⟨h, hunset⟩) ?_
  rintro _ executor ⟨hplan, rfl⟩
  refine Ensures.bind ((ensures_planBuffers h.buffers).mono (fun _ _ h => h)
    fun _ hsame hallocation => hsame hallocation ▸ ⟨h, hunset⟩) ?_
  rintro _ _ ⟨stages, compiledPrograms, rfl⟩
  refine Ensures.bind (ensures_copyToDevice.mono (fun _ _ h => h) ?_) ?_
  · rintro _ ⟨-, left, rfl⟩ -
    exact ⟨h.withBuffers rfl, hunset⟩
  rintro _ _ rfl
  refine Ensures.bind (ensures_copyToDevice.mono (fun _ _ h => h) ?_) ?_
  · rintro _ ⟨-, left, rfl⟩ -
    exact ⟨h.withBuffers rfl, hunset⟩
  rintro _ _ rfl
  obtain ⟨hne, hlength⟩ := size_of_validateCompiledPlan hplan
  have hmod := Nat.mod_eq_of_lt hcount
  refine Ensures.modify ⟨⟨⟨h.config_eq, rfl, h.dereferenced⟩, ?_, h.programCount, hmod, h.valid⟩, rfl⟩
  have hprograms : executor.programCount = plan.programs.length := h.programCount.trans hlength.symm
  have hargs := h.args
  simp only [ResidentExecutor.arguments, UploadedGraph.args, ResidentArgs.mk.injEq] at hargs ⊢
  refine ⟨hargs.1, hargs.2.1, hargs.2.2.1, ?_, ?_⟩
  · rw [hmod]
    exact Table.take_store stages plan.stages
  · rw [hmod, if_neg (List.length_eq_zero_iff.not.mpr hne), hprograms]
    exact Table.take_store compiledPrograms plan.programs

/-- The control words are not part of the tables. -/
theorem ResidentExecutor.Holds.withWords {graph : UploadedGraph} (h : executor.Holds config graph)
    {state : State} {phaseStates : ℕ → MaskState} {initialized : Bool} :
    ResidentExecutor.Holds config graph
      { executor with state := state, phaseStates := phaseStates, initialized := initialized } :=
  ⟨⟨h.config_eq, h.buffers, h.dereferenced⟩, h.args, h.programCount, h.stageCount, h.valid⟩

/-- An initialization that fails changes nothing, unless one of its copies fails. -/
theorem ResidentExecutor.Holds.ensures_initializeState {graph : UploadedGraph}
    (h : executor.Holds config graph) {programIndex maxSteps stopValue : ℕ}
    {stateCopy : Option State} {phaseCopy : Option (ℕ → MaskState)} :
    (initializeState programIndex maxSteps stopValue stateCopy phaseCopy).Ensures executor
      (fun _ after => after.Holds config graph ∧
        initialState config graph.programs.length programIndex maxSteps stopValue = .ok after.state ∧
        after.phaseStates = fun _ => {})
      fun after => after.Holds config graph ∧ after.initialized = executor.initialized ∧
        (stateCopy = none → phaseCopy = none → after = executor) := by
  refine Ensures.seq (Ensures.get ?_)
  refine Ensures.bind ((ensures_validated _).mono (fun _ _ h => h) ?_) ?_
  · rintro _ rfl
    exact ⟨h, rfl, fun _ _ => rfl⟩
  rintro state executor ⟨hstate, rfl⟩
  refine Ensures.bind (ensures_copyToDevice.mono (fun _ _ h => h) ?_) ?_
  · rintro _ ⟨hfailed, left, rfl⟩
    exact ⟨h.withWords, rfl, fun hstate => absurd hstate hfailed⟩
  rintro _ _ rfl
  refine Ensures.bind (ensures_copyToDevice.mono (fun _ _ h => h) ?_) ?_
  · rintro _ ⟨hfailed, left, rfl⟩
    exact ⟨h.withWords, rfl, fun _ hphases => absurd hphases hfailed⟩
  rintro _ _ rfl
  rw [h.config_eq, h.programCount] at hstate
  exact Ensures.modify ⟨h.withWords, hstate, rfl⟩

end Calls

/-! ## Launches -/

/-- The control words are those that `initialize` writes for a graph. -/
structure Launch.Fresh (config : ResidentConfig) (launch : Launch) : Prop where
  state : ∃ programIndex maxSteps stopValue, initialState config launch.graph.programs.length
    programIndex maxSteps stopValue = .ok launch.state
  phaseStates : launch.phaseStates = fun _ => {}

/-- The kernel finds one graph that was uploaded completely, and control words for it. -/
structure Launch.Proper (config : ResidentConfig) (launch : Launch) : Prop
    extends launch.Fresh config where
  args : launch.args = launch.graph.args config
  valid : HostValid launch.graph.tasks launch.graph.programs config

/-- The dynamic kernel when it starts. -/
def Launch.dynamic (launch : Launch) (memory : Memory) : Sys Dynamic.Pc where
  device := { state := launch.state, phaseStates := launch.phaseStates, memory := memory }
  pcs := fun _ => .begin

/-- The compiled kernel when it starts. -/
def Launch.compiled (launch : Launch) (memory : Memory) : Sys Compiled.Pc where
  device := { state := launch.state, phaseStates := launch.phaseStates, memory := memory }
  pcs := fun _ => .begin

/-- The kernel ends under every fair schedule of its workers, whichever of the two it is. -/
def Launch.Ends (config : ResidentConfig) (launch : Launch) : Prop :=
  ∀ (workload : Workload) (memory : Memory) (schedule : ℕ → ℕ),
    Fair (· < config.workerCount) schedule →
    (∃ n, ∀ w < config.workerCount, ∃ status,
      (after (Dynamic.step workload launch.args) schedule (launch.dynamic memory) n).pcs w =
        .returned status) ∧
    ∃ n, ∀ w < config.workerCount, ∃ status,
      (after (Compiled.step workload launch.args) schedule (launch.compiled memory) n).pcs w =
        .returned status

/-- A kernel that finds what it should ends. -/
theorem Launch.Proper.ends {config : ResidentConfig} {launch : Launch} (h : launch.Proper config) :
    launch.Ends config := by
  intro workload memory schedule hfair
  obtain ⟨programIndex, maxSteps, stopValue, hstate⟩ := h.state
  obtain ⟨-, hstate⟩ := Checked.after_refuse_eq_ok.mp hstate
  obtain ⟨-, hstate⟩ := Checked.after_refuse_eq_ok.mp hstate
  have hready : launch.state.status = .ready := by rw [← Except.ok.inj hstate]
  have hworkers : launch.state.workerCount = config.workerCount := by rw [← Except.ok.inj hstate]
  have hcount : launch.args.phaseStateCount ≤ kMaximumPhaseStates := by
    rw [h.args]
    exact h.valid.phaseStateCount_le
  have hdynamic : launch.dynamic memory = Dynamic.init launch.state memory := by
    rw [Launch.dynamic, h.phaseStates]
    rfl
  have hcompiled : launch.compiled memory = Compiled.init launch.state memory := by
    rw [Launch.compiled, h.phaseStates]
    rfl
  rw [hdynamic, hcompiled]
  refine ⟨Dynamic.launch_ends hready hcount hfair, ?_⟩
  rw [← hworkers] at hfair ⊢
  exact Compiled.launch_ends hready hcount hfair

/-! ## Sessions -/

/-- The executor holds the graph of the session, its control words are new unless there was a
launch, and so they were at every launch. -/
structure Session.Sound (config : ResidentConfig) (session : Session) : Prop where
  holds : session.executor.Holds config session.graph
  fresh : session.executor.initialized = true → session.launched = false →
    Launch.Fresh config session.next
  launches : ∀ launch ∈ session.launches, launch.Proper config

/-- The condition on a call: the tables of a graph are copied completely, and the buffers of a plan
are not allocated by halves; a plan has a number of stages that a word can hold; an executor that is
initialized is initialized again completely; and it is initialized again before a second launch. -/
def Session.Clean (session : Session) : ExecutorCall → Prop
  | .uploadGraph _ _ plan outcome =>
    outcome.tasks = none ∧ outcome.programs = none ∧ outcome.compiledAllocation = true ∧
      ∀ compiled, plan = some compiled → compiled.stages.length < 2 ^ 32
  | .start _ _ _ stateCopy phaseCopy =>
    session.executor.initialized = true → stateCopy = none ∧ phaseCopy = none
  | .launch _ _ => session.executor.initialized = true → session.launched = false

section Sessions

variable {config : ResidentConfig} {session : Session} {tasks : List Task} {programs : List Program}
  {plan : Option CompiledPlan} {outcome : UploadOutcome}

/-- An executor that is not initialized. -/
theorem Session.Sound.of_not_initialized (hholds : session.executor.Holds config session.graph)
    (hunset : session.executor.initialized = false)
    (hlaunches : ∀ launch ∈ session.launches, launch.Proper config) : session.Sound config :=
  ⟨hholds, fun hset => absurd (hset.symm.trans hunset) (by decide), hlaunches⟩

/-- An upload of a plan for the graph. -/
theorem Session.Sound.uploadPlan {compiled : CompiledPlan}
    (hholds : session.executor.Holds config ⟨tasks, programs, none⟩)
    (hgraph : session.graph = ⟨tasks, programs, none⟩)
    (hunset : session.executor.initialized = false)
    (hlaunches : ∀ launch ∈ session.launches, launch.Proper config)
    (hcount : compiled.stages.length < 2 ^ 32) (hallocation : outcome.compiledAllocation = true) :
    (session.uploadPlan tasks programs compiled outcome).Sound config := by
  have hplan := @ResidentExecutor.Holds.ensures_uploadCompiledPlan _ _ _ _ _ outcome hholds hunset hcount
  unfold Session.uploadPlan
  cases hresult : ((uploadCompiledPlan tasks programs compiled outcome).run session.executor).1 with
  | ok _ =>
    obtain ⟨hafter, hunset'⟩ := hplan.1 _ hresult
    simp only [hresult]
    exact .of_not_initialized hafter hunset' hlaunches
  | error _ =>
    obtain ⟨hafter, hunset'⟩ := hplan.2 _ hresult hallocation
    rw [← hgraph] at hafter
    simp only [hresult]
    exact .of_not_initialized hafter hunset' hlaunches

/-- An upload of a graph. -/
theorem Session.Sound.uploadGraph (h : session.Sound config)
    (hclean : session.Clean (.uploadGraph tasks programs plan outcome)) :
    (session.call (.uploadGraph tasks programs plan outcome)).Sound config := by
  obtain ⟨htasks, hprograms, hallocation, hcount⟩ := hclean
  have hgraph := @ResidentExecutor.Intact.ensures_uploadGraph _ _ tasks programs outcome
    h.holds.toIntact
  unfold Session.call
  cases hresult : ((Graph.uploadGraph tasks programs outcome).run session.executor).1 with
  | error _ =>
    have hsame := hgraph.2 _ hresult htasks hprograms
    simp only [hresult, hsame]
    exact h
  | ok _ =>
    obtain ⟨hafter, hunset⟩ := hgraph.1 _ hresult
    cases plan with
    | none =>
      simp only [hresult]
      exact .of_not_initialized hafter hunset h.launches
    | some compiled =>
      simp only [hresult]
      exact .uploadPlan hafter rfl hunset h.launches (hcount compiled rfl) hallocation

/-- An initialization. -/
theorem Session.Sound.start (h : session.Sound config) {programIndex maxSteps stopValue : ℕ}
    {stateCopy : Option State} {phaseCopy : Option (ℕ → MaskState)}
    (hclean : session.Clean (.start programIndex maxSteps stopValue stateCopy phaseCopy)) :
    (session.call (.start programIndex maxSteps stopValue stateCopy phaseCopy)).Sound config := by
  have hstart := @ResidentExecutor.Holds.ensures_initializeState _ _ _ h.holds programIndex maxSteps
    stopValue stateCopy phaseCopy
  unfold Session.call
  cases hresult : ((initializeState programIndex maxSteps stopValue stateCopy phaseCopy).run
      session.executor).1 with
  | ok _ =>
    obtain ⟨hafter, hstate, hphases⟩ := hstart.1 _ hresult
    simp only [hresult]
    exact ⟨hafter, fun _ _ => ⟨⟨programIndex, maxSteps, stopValue, hstate⟩, hphases⟩, h.launches⟩
  | error _ =>
    obtain ⟨hafter, hinitialized, hsame⟩ := hstart.2 _ hresult
    simp only [hresult]
    cases hset : session.executor.initialized with
    | false => exact .of_not_initialized hafter (hinitialized.trans hset) h.launches
    | true =>
      obtain ⟨hstate, hphases⟩ := hclean hset
      rw [hsame hstate hphases]
      exact h

/-- A launch. -/
theorem Session.Sound.launch (h : session.Sound config) {state : State}
    {phaseStates : ℕ → MaskState} (hclean : session.Clean (.launch state phaseStates)) :
    (session.call (.launch state phaseStates)).Sound config := by
  unfold Session.call
  by_cases hset : session.executor.initialized = true
  · simp only [if_pos hset]
    have hnext : session.next.Proper config :=
      ⟨h.fresh hset (hclean hset), h.holds.args, h.holds.valid⟩
    refine ⟨h.holds.withWords, fun _ hfalse => ?_, ?_⟩
    · cases hfalse
    · intro launch hmem
      rcases List.mem_append.mp hmem with hold | hnew
      · exact h.launches launch hold
      · obtain rfl := List.mem_singleton.mp hnew
        exact hnext
  · simp only [if_neg hset]
    exact h

/-- The constructor. -/
theorem Session.sound_create (hcount : ∀ compiled, plan = some compiled →
      compiled.stages.length < 2 ^ 32)
    (hcreate : Session.create config tasks programs plan outcome = some session) :
    session.Sound config := by
  unfold Session.create at hcreate
  cases hvalid : validateResidentGraph tasks programs config with
  | error _ =>
    rw [hvalid] at hcreate
    cases hcreate
  | ok graph =>
    simp only [hvalid] at hcreate
    have hgraph := @ResidentExecutor.Intact.ensures_uploadGraph config
      { config := config
        taskBuffer := { bytes := graph.taskBytes }
        programBuffer := { bytes := graph.programBytes } } tasks programs outcome ⟨rfl, rfl, rfl⟩
    split at hcreate
    · cases hcreate
    · next hresult =>
      obtain ⟨hafter, hunset⟩ := hgraph.1 _ hresult
      cases hcreate
      exact .of_not_initialized hafter hunset (List.forall_mem_nil _)
    · next compiled hresult =>
      obtain ⟨hafter, hunset⟩ := hgraph.1 _ hresult
      have hplan := @ResidentExecutor.Holds.ensures_uploadCompiledPlan _ _ _ _ _ outcome hafter hunset
        (hcount compiled rfl)
      split at hcreate
      · cases hcreate
      · next hresult =>
        obtain ⟨hafter, hunset⟩ := hplan.1 _ hresult
        cases hcreate
        exact .of_not_initialized hafter hunset (List.forall_mem_nil _)

/-- Every call. -/
theorem Session.Sound.call (h : session.Sound config) {call : ExecutorCall}
    (hclean : session.Clean call) : (session.call call).Sound config := by
  cases call with
  | uploadGraph => exact h.uploadGraph hclean
  | start => exact h.start hclean
  | launch => exact h.launch hclean

end Sessions

/-- The calls of an executor, which always return or throw. -/
def Session.step (call : ExecutorCall) (session : Session) : Option Session :=
  some (session.call call)

/-- In every run of an executor whose calls are all clean no missing buffer is dereferenced, and at
every launch the kernel finds one graph whose upload was completed with control words that are new,
and it ends. -/
theorem launches_find_uploaded_graph {config : ResidentConfig} {tasks : List Task}
    {programs : List Program} {plan : Option CompiledPlan} {outcome : UploadOutcome}
    {session final : Session} {calls : List ExecutorCall}
    (hcount : ∀ compiled, plan = some compiled → compiled.stages.length < 2 ^ 32)
    (hcreate : Session.create config tasks programs plan outcome = some session)
    (hrun : Run.Steps Session.step Session.Clean session calls final) :
    final.executor.dereferenced = false ∧
      ∀ launch ∈ final.launches, launch.Proper config ∧ launch.Ends config := by
  have hsound : final.Sound config := by
    refine hrun.invariant (fun s call t hs hclean hstep => ?_) (Session.sound_create hcount hcreate)
    obtain rfl := Option.some.inj hstep
    exact hs.call hclean
  exact ⟨hsound.holds.dereferenced,
    fun launch hmem => ⟨hsound.launches launch hmem, (hsound.launches launch hmem).ends⟩⟩

/-- Two tasks in turn, for one program. -/
def chained : UploadedGraph :=
  ⟨[{}, { dependencyMask := 1 }], [{ taskCount := 2 }], some ⟨[⟨0, 1⟩, ⟨1, 1⟩], [⟨0, 2⟩]⟩⟩

/-- An upload whose plan cannot be copied, a complete one, and two launches. -/
def uploadsAndLaunches : List ExecutorCall :=
  [.uploadGraph [{}] [{ taskCount := 1 }] (some ⟨[⟨0, 1⟩], [⟨0, 1⟩]⟩) { stages := some [] },
    .uploadGraph chained.tasks chained.programs chained.plan {},
    .start 0 2 0 none none, .launch {} fun _ => {},
    .start 0 1 0 none none, .launch {} fun _ => {}]

/-- Both launches are of the graph and the plan that were uploaded last. -/
theorem chain_launched : ∃ session final,
    Session.create ⟨2, 2⟩ chained.tasks chained.programs chained.plan {} = some session ∧
    Run.Steps Session.step Session.Clean session uploadsAndLaunches final ∧
    final.launches.map Launch.graph = [chained, chained] ∧ final.executor.dereferenced = false ∧
    ∀ launch ∈ final.launches, launch.Proper ⟨2, 2⟩ ∧ launch.Ends ⟨2, 2⟩ := by
  have hcount : ∀ compiled, chained.plan = some compiled → compiled.stages.length < 2 ^ 32 := by
    rintro _ ⟨⟩
    decide
  obtain ⟨session, final, hcreate, hrun, hgraphs⟩ : ∃ session final,
      Session.create ⟨2, 2⟩ chained.tasks chained.programs chained.plan {} = some session ∧
      Run.Steps Session.step Session.Clean session uploadsAndLaunches final ∧
      final.launches.map Launch.graph = [chained, chained] := by
    refine ⟨_, _, rfl, .cons ⟨rfl, rfl, rfl, ?_⟩ rfl (.cons ⟨rfl, rfl, rfl, hcount⟩ rfl
      (.cons (fun _ => ⟨rfl, rfl⟩) rfl (.cons (fun _ => rfl) rfl (.cons (fun _ => ⟨rfl, rfl⟩) rfl
        (.cons (fun _ => rfl) rfl (.nil _)))))), rfl⟩
    rintro _ ⟨⟩
    decide
  exact ⟨session, final, hcreate, hrun, hgraphs,
    launches_find_uploaded_graph hcount hcreate hrun⟩

/-- An upload whose second copy fails leaves the new tasks with the old programs and counts, and the
executor still initialized. -/
theorem failed_upload_launched : ∃ session final,
    Session.create ⟨1, 1⟩ [{}] [{ taskCount := 1 }] none {} = some session ∧
    Run.exec Session.step
      [.start 0 1 0 none none,
        .uploadGraph [{ opcode := 1 }] [{ taskCount := 1 }] none { programs := some [] },
        .launch {} fun _ => {}] session = some final ∧
    ∃ launch ∈ final.launches,
      launch.graph.tasks = [{}] ∧ launch.args.tasks = [{ opcode := 1 }] :=
  ⟨_, _, rfl, rfl, _, List.mem_singleton_self _, rfl, rfl⟩

end LightRocm.Graph
