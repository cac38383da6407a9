import LightRocm.Graph.History
import LightRocm.Graph.Plan

/-!
# What a launch computes

The meaning of a graph without workers: the phases one after the other, in each
of them the tasks in the order of their table, and then the end of the phase.
`Tracks` relates it to a device on which workers execute the tasks. Each of the
few things a scheduler does to the state and the tasks keeps it, as long as tasks
that do not depend on each other do not touch what the other one writes.
-/

namespace LightRocm.Graph

/-- What a task of a program does in a phase. -/
def taskAction (workload : Workload) (args : ResidentArgs) (p step t : ℕ) : Action :=
  workload.execute (args.task ((args.program p).taskOffset + t)) step

/-- The memory after the first tasks of a program. -/
def runTasks (workload : Workload) (args : ResidentArgs) (p step : ℕ) (memory : Memory) :
    ℕ → Memory
  | 0 => memory
  | n + 1 => (taskAction workload args p step n).run (runTasks workload args p step memory n)

/-- The tasks of a phase, executed one after the other. -/
def executePhase (workload : Workload) (args : ResidentArgs) (d : Device) : Device :=
  { d with memory := runTasks workload args d.program d.state.step d.memory (d.taskCount args) }

/-- The end of a phase. -/
def endPhase (args : ResidentArgs) (d : Device) : Device :=
  let d' := d.advance (args.program d.program)
  d'.settle 0 (phaseGeneration d.state.phase)
    (verdict args (args.program d.program) (phaseGeneration d.state.phase) d'.state.step d')

/-- A launch after `n` phases. -/
def reference (workload : Workload) (args : ResidentArgs) (launch : State) (memory : Memory) :
    ℕ → Device
  | 0 => Device.publish .running { state := launch, memory := memory }
  | n + 1 =>
    let d := reference workload args launch memory n
    if d.state.status = .running then endPhase args (executePhase workload args d) else d

/-- What is left of a launch: the data, the step, the count of executed tasks, the status and
the error code. -/
structure Result where
  memory : Memory
  step : ℕ
  executedTasks : ℕ
  status : Status
  errorCode : ℕ

/-- The result of a launch. -/
def Device.result (d : Device) : Result where
  memory := d.memory
  step := d.state.step
  executedTasks := d.state.executedTasks
  status := d.state.status
  errorCode := d.state.errorCode

/-- The tasks of a phase as a graph. -/
def phaseGraph (workload : Workload) (args : ResidentArgs) (p step : ℕ)
    (h : ValidStages args p) : TaskGraph.Graph Loc ℕ where
  count := (args.program p).taskCount
  action := taskAction workload args p step
  depends := args.Depends (args.program p)
  lt_of_depends := by
    intro t d ht hdepends
    obtain ⟨i, j, hi, hj, rfl⟩ := h.exists_stage ht
    have hlt := (h.stage hi).lt_of_depends hj hdepends
    omega

/-- In no phase does a task touch what another one writes, unless a chain of dependencies
orders the two. -/
def Separated (workload : Workload) (args : ResidentArgs) (launch : State) (memory : Memory) :
    Prop :=
  ∀ n d, reference workload args launch memory n = d → d.state.status = .running →
    ∀ h : ValidStages args d.program,
      (phaseGraph workload args d.program d.state.step h).ConflictFree d.memory

variable {workload : Workload} {args : ResidentArgs} {launch : State} {memory : Memory}

section Reference

/-- Once a launch has ended, it stays as it is. -/
theorem reference_of_ended {n m : ℕ} (hle : n ≤ m)
    (hended : (reference workload args launch memory n).state.status.Ended) :
    reference workload args launch memory m = reference workload args launch memory n := by
  induction m, hle using Nat.le_induction with
  | base => rfl
  | succ m _ ih =>
    rw [reference, ih]
    exact if_neg hended.2

/-- A launch has one end. -/
theorem reference_unique {n m : ℕ}
    (hn : (reference workload args launch memory n).state.status.Ended)
    (hm : (reference workload args launch memory m).state.status.Ended) :
    reference workload args launch memory n = reference workload args launch memory m := by
  rcases le_total n m with hle | hle
  · exact (reference_of_ended hle hn).symm
  · exact reference_of_ended hle hm

/-- The same device with another number of workers. -/
def Device.withWorkers (workerCount : ℕ) (d : Device) : Device :=
  { d with state := { d.state with workerCount := workerCount } }

theorem Device.settle_withWorkers (workerCount w generation : ℕ) (outcome : Verdict) (d : Device) :
    (d.withWorkers workerCount).settle w generation outcome =
      (d.settle w generation outcome).withWorkers workerCount := by
  cases outcome <;> rfl

/-- Nothing depends on the number of workers. -/
theorem reference_withWorkers (workerCount n : ℕ) :
    reference workload args { launch with workerCount := workerCount } memory n =
      (reference workload args launch memory n).withWorkers workerCount := by
  have hend : ∀ d : Device, endPhase args (d.withWorkers workerCount) =
      (endPhase args d).withWorkers workerCount := fun d =>
    Device.settle_withWorkers workerCount 0 _ _ (d.advance (args.program d.program))
  induction n with
  | zero => rfl
  | succ n ih =>
    rw [reference, reference, ih]
    by_cases hrunning : (reference workload args launch memory n).state.status = .running
    · rw [if_pos hrunning, ← hend]
      exact if_pos hrunning
    · rw [if_neg hrunning]
      exact if_neg hrunning

/-- The sequential execution of the graph of a phase. -/
theorem sequential_phaseGraph {p step : ℕ} (h : ValidStages args p) (m : Memory) (n : ℕ) :
    (phaseGraph workload args p step h).sequential m n = runTasks workload args p step m n := by
  induction n with
  | zero => rfl
  | succ n ih =>
    rw [TaskGraph.Graph.sequential, ih]
    rfl

end Reference

/-! ## Workers that execute the tasks -/

/-- What a worker is doing. -/
inductive View where
  /-- Nothing that counts. -/
  | idle
  /-- It executes a task, of which an action is left. -/
  | busy (t : ℕ) (a : Action)
  /-- It has advanced the step and will publish how the run goes on. -/
  | late

/-- The tasks of a phase as the board and the workers show them. -/
structure Shadows (d : Device) (view : ℕ → View) (x : TaskGraph.Exec Loc ℕ) : Prop where
  memory : x.memory = d.memory
  idle : ∀ {t}, d.board t = .unclaimed → x.tasks t = .idle
  finished : ∀ {t}, (d.board t).finisher ≠ [] → x.tasks t = .finished
  running : ∀ {w t a}, view w = .busy t a → d.board t = .executing w ∧ x.tasks t = .running a

/-- How far the workers have come with the launch. -/
inductive Tracks (workload : Workload) (args : ResidentArgs) (launch : State) (memory : Memory)
    (d : Device) (view : ℕ → View) : Prop
  | ready (hstate : d.state = launch) (hready : launch.status = .ready)
      (hmemory : d.memory = memory) (hleft : d.left = []) (hboard : ∀ t, d.board t = .unclaimed)
      (hview : ∀ w, view w = .idle)
  /-- The tasks of a phase are being executed. -/
  | working {r : Device} {x : TaskGraph.Exec Loc ℕ} (hvalid : ValidStages args r.program)
      (hr : reference workload args launch memory d.left.length = r)
      (hrunning : r.state.status = .running) (hstate : d.state = r.state)
      (hfollows : (phaseGraph workload args r.program r.state.step hvalid).Follows r.memory x)
      (hshadows : Shadows d view x) (hview : ∀ w, view w ≠ .late)
  /-- The tasks of a phase have been executed, and worker `w` has advanced the step. -/
  | closing {r : Device} {w : ℕ} (hr : reference workload args launch memory d.left.length = r)
      (hrunning : r.state.status = .running)
      (hstate : d.state = ((executePhase workload args r).advance (args.program r.program)).state)
      (hmemory : d.memory = (executePhase workload args r).memory)
      (hexecuted : d.Executed args) (hview : ∀ v ≠ w, view v = .idle) (hlate : view w = .late)
  | ended {r : Device} (hr : reference workload args launch memory (d.left.length + 1) = r)
      (hended : r.state.status.Ended) (hstate : d.state = r.state) (hmemory : d.memory = r.memory)
      (hview : ∀ w, view w = .idle)

section Tracks

variable {d d' : Device} {view : ℕ → View} {x : TaskGraph.Exec Loc ℕ} {w t : ℕ} {a : Action}

/-- A mark that shows the same progress of a task. -/
def Mark.Same (mark mark' : Mark) : Prop :=
  mark' = mark ∨ mark.finisher ≠ [] ∧ mark'.finisher ≠ []

/-- Changes that no task notices. -/
theorem Shadows.congr (h : Shadows d view x) (hmemory : d'.memory = d.memory)
    (hboard : ∀ t, (d.board t).Same (d'.board t)) : Shadows d' view x where
  memory := h.memory.trans hmemory.symm
  idle {t} ht := by
    rcases hboard t with hsame | ⟨-, hdone⟩
    · exact h.idle (hsame ▸ ht)
    · rw [ht] at hdone
      exact absurd rfl hdone
  finished {t} ht := by
    rcases hboard t with hsame | ⟨hdone, -⟩
    · exact h.finished (hsame ▸ ht)
    · exact h.finished hdone
  running {w t a} hw := by
    obtain ⟨hexecuting, hrun⟩ := h.running hw
    refine ⟨?_, hrun⟩
    rcases hboard t with hsame | ⟨hdone, -⟩
    · exact hsame.trans hexecuting
    · rw [hexecuting] at hdone
      exact absurd rfl hdone

/-- Changes that no task notices and that leave the state and the phases. -/
theorem Tracks.congr (h : Tracks workload args launch memory d view) (hstate : d'.state = d.state)
    (hmemory : d'.memory = d.memory) (hleft : d'.left = d.left)
    (hboard : ∀ t, (d.board t).Same (d'.board t)) :
    Tracks workload args launch memory d' view := by
  cases h with
  | ready hlaunch hready hold hempty hfresh hview =>
    refine .ready (hstate.trans hlaunch) hready (hmemory.trans hold) (hleft.trans hempty)
      (fun t => ?_) hview
    rcases hboard t with hsame | ⟨hdone, -⟩
    · exact hsame.trans (hfresh t)
    · rw [hfresh t] at hdone
      exact absurd rfl hdone
  | working hvalid hr hrunning hold hfollows hshadows hview =>
    exact .working hvalid (by rw [hleft]; exact hr) hrunning (hstate.trans hold) hfollows
      (hshadows.congr hmemory hboard) hview
  | closing hr hrunning hold hend hexecuted hview hlate =>
    refine .closing (by rw [hleft]; exact hr) hrunning (hstate.trans hold) (hmemory.trans hend)
      (fun t ht => ?_) hview hlate
    have hdone := hexecuted t (by rwa [Device.program, hstate] at ht)
    rcases hboard t with hsame | ⟨-, hdone'⟩
    · rwa [hsame]
    · exact hdone'
  | ended hr hended hold hend hview =>
    exact .ended (by rw [hleft]; exact hr) hended (hstate.trans hold) (hmemory.trans hend) hview

/-- A worker that does nothing that counts goes on. -/
theorem Tracks.pass (h : Tracks workload args launch memory d view) {v : View} (hv : view w = v) :
    Tracks workload args launch memory d (Function.update view w v) := by
  rwa [← hv, Function.update_eq_self]

/-- A worker writes what no task reads. -/
theorem Tracks.note (h : Tracks workload args launch memory d view) (d' : Device)
    (hstate : d'.state = d.state)
    (hmemory : d'.memory = d.memory) (hleft : d'.left = d.left) (hboard : d'.board = d.board)
    {v : View} (hv : view w = v) :
    Tracks workload args launch memory d' (Function.update view w v) :=
  (h.congr hstate hmemory hleft fun t => .inl (congrFun hboard t)).pass hv

/-- A worker gives a new mark to a task that has been executed. -/
theorem Tracks.remark (h : Tracks workload args launch memory d view) (d' : Device) (mark : Mark)
    (hold : (d.board t).finisher ≠ []) (hnew : mark.finisher ≠ []) (hstate : d'.state = d.state)
    (hmemory : d'.memory = d.memory) (hleft : d'.left = d.left)
    (hboard : d'.board = Function.update d.board t mark) {v : View} (hv : view w = v) :
    Tracks workload args launch memory d' (Function.update view w v) := by
  refine (h.congr hstate hmemory hleft fun i => ?_).pass hv
  by_cases heq : i = t
  · rw [heq, hboard, Function.update_self]
    exact .inr ⟨hold, hnew⟩
  · rw [hboard, Function.update_of_ne heq]
    exact .inl rfl

/-- Worker 0 publishes that the launch runs. -/
theorem Tracks.publish (h : Tracks workload args launch memory d view)
    (hvalid : ValidStages args d.program) (hready : d.state.status = .ready) :
    Tracks workload args launch memory (d.publish .running) view := by
  cases h with
  | ready hlaunch _ hmemory hleft hboard hview =>
    have hr : reference workload args launch memory (d.publish .running).left.length =
        Device.publish .running { state := launch, memory := memory } := by
      rw [show (d.publish .running).left = d.left from rfl, hleft]
      rfl
    have hstate : (d.publish .running).state =
        (Device.publish .running { state := launch, memory := memory }).state := by
      rw [Device.publish, hlaunch]
      rfl
    refine .working (x := ⟨d.memory, fun _ => .idle⟩) ?_ hr rfl hstate
      (TaskGraph.Graph.Follows.init (fun _ => rfl) hmemory) ⟨rfl, fun _ => rfl, ?_, ?_⟩ ?_
    · rwa [Device.program, ← hstate]
    · intro t ht
      rw [show (d.publish .running).board = d.board from rfl, hboard t] at ht
      exact absurd rfl ht
    · intro w t a hw
      rw [hview w] at hw
      cases hw
    · intro w
      rw [hview w]
      exact nofun
  | working _ _ hrunning hstate => rw [hstate, hrunning] at hready; cases hready
  | closing _ hrunning hstate =>
    rw [hstate] at hready
    have hready' : Status.running = .ready := hrunning.symm.trans hready
    cases hready'
  | ended _ hended hstate => rw [hstate] at hready; exact absurd hready hended.1

/-- A worker takes a task. -/
theorem Tracks.take (h : Tracks workload args launch memory d view)
    (hfree : Separated workload args launch memory) (hrunning : d.state.status = .running)
    (ht : t < d.taskCount args) (hboard : d.board t = .unclaimed)
    (hdepends : ∀ i, args.Depends (args.program d.program) t i → (d.board i).finisher ≠ []) :
    Tracks workload args launch memory (d.take w t)
      (Function.update view w (.busy t (taskAction workload args d.program d.state.step t))) := by
  cases h with
  | ready hlaunch hready => rw [hlaunch, hready] at hrunning; cases hrunning
  | @working r x hvalid hr hrunning' hstate hfollows hshadows hview =>
    have hprogram : d.program = r.program := by rw [Device.program, hstate, Device.program]
    have hidle : x.tasks t = .idle := hshadows.idle hboard
    have hother : ∀ {v t' : ℕ} {a : Action}, view v = .busy t' a → t' ≠ t := by
      rintro v t' a hv rfl
      rw [(hshadows.running hv).2] at hidle
      cases hidle
    have hcount : t < (args.program r.program).taskCount := by
      rw [← hprogram]
      exact ht
    refine .working hvalid hr hrunning' hstate
      (hfollows.start (hfree _ r hr hrunning' hvalid) hcount hidle fun i hi =>
        hshadows.finished (hdepends i (by rw [hprogram]; exact hi)))
      ⟨hshadows.memory, fun {t'} ht' => ?_, fun {t'} ht' => ?_, fun {v t' a} hv => ?_⟩ fun v => ?_
    · by_cases heq : t' = t
      · simp [Device.take, heq] at ht'
      · simpa [Device.take, heq] using hshadows.idle (by simpa [Device.take, heq] using ht')
    · by_cases heq : t' = t
      · simp [Device.take, heq, Mark.finisher] at ht'
      · simpa [Device.take, heq] using hshadows.finished (by simpa [Device.take, heq] using ht')
    · by_cases heq : v = w
      · subst heq
        rw [Function.update_self] at hv
        obtain ⟨rfl, rfl⟩ := View.busy.inj hv
        rw [hprogram, hstate]
        exact ⟨Function.update_self .., Function.update_self ..⟩
      · rw [Function.update_of_ne heq] at hv
        obtain ⟨hexecuting, hrun⟩ := hshadows.running hv
        exact ⟨(Function.update_of_ne (hother hv) _ _).trans hexecuting,
          (Function.update_of_ne (hother hv) _ _).trans hrun⟩
    · by_cases heq : v = w
      · subst heq
        rw [Function.update_self]
        exact (by rintro ⟨⟩)
      · rw [Function.update_of_ne heq]
        exact hview v
  | closing _ _ _ _ hexecuted =>
    have hdone := hexecuted t ht
    rw [hboard] at hdone
    exact absurd rfl hdone
  | ended _ hended hstate => rw [hstate] at hrunning; exact absurd hrunning hended.2

/-- A worker that executes a task does so in a phase that runs. -/
theorem Tracks.busy (h : Tracks workload args launch memory d view) (hw : view w = .busy t a) :
    ∃ r x, ∃ hvalid : ValidStages args r.program,
      reference workload args launch memory d.left.length = r ∧ r.state.status = .running ∧
      d.state = r.state ∧
      (phaseGraph workload args r.program r.state.step hvalid).Follows r.memory x ∧
      Shadows d view x ∧ ∀ v, view v ≠ .late := by
  cases h with
  | ready _ _ _ _ _ hview | ended _ _ _ _ hview => rw [hview w] at hw; cases hw
  | working hvalid hr hrunning hstate hfollows hshadows hview =>
    exact ⟨_, _, hvalid, hr, hrunning, hstate, hfollows, hshadows, hview⟩
  | @closing r v _ _ _ _ _ hview hlate =>
    by_cases heq : w = v
    · rw [heq, hlate] at hw
      cases hw
    · rw [hview w heq] at hw
      cases hw

/-- A worker makes an access. -/
theorem Tracks.act (h : Tracks workload args launch memory d view)
    (hfree : Separated workload args launch memory) (hw : view w = .busy t a) :
    Tracks workload args launch memory { d with memory := (a.step d.memory).2 }
      (Function.update view w (.busy t (a.step d.memory).1)) := by
  obtain ⟨r, x, hvalid, hr, hrunning, hstate, hfollows, hshadows, hview⟩ := h.busy hw
  obtain ⟨hexecuting, hrun⟩ := hshadows.running hw
  have hacts := hfollows.act (hfree _ r hr hrunning hvalid) hrun
  rw [hshadows.memory] at hacts
  refine .working hvalid hr hrunning hstate hacts ⟨rfl, fun {t'} ht' => ?_, fun {t'} ht' => ?_,
    fun {v t' a'} hv => ?_⟩ fun v => ?_
  · have hne : t' ≠ t := by
      rintro rfl
      rw [hexecuting] at ht'
      cases ht'
    exact (Function.update_of_ne hne _ _).trans (hshadows.idle ht')
  · have hne : t' ≠ t := by
      rintro rfl
      rw [hexecuting] at ht'
      exact ht' rfl
    exact (Function.update_of_ne hne _ _).trans (hshadows.finished ht')
  · by_cases heq : v = w
    · subst heq
      rw [Function.update_self] at hv
      obtain ⟨rfl, rfl⟩ := View.busy.inj hv
      exact ⟨hexecuting, Function.update_self ..⟩
    · rw [Function.update_of_ne heq] at hv
      obtain ⟨hexecuting', hrun'⟩ := hshadows.running hv
      have hne : t' ≠ t := by
        rintro rfl
        exact heq (Mark.executing.inj (hexecuting'.symm.trans hexecuting))
      exact ⟨hexecuting', (Function.update_of_ne hne _ _).trans hrun'⟩
  · by_cases heq : v = w
    · subst heq
      rw [Function.update_self]
      exact nofun
    · rw [Function.update_of_ne heq]
      exact hview v

/-- A worker has made the last access of its task. -/
theorem Tracks.finish (h : Tracks workload args launch memory d view)
    (hfree : Separated workload args launch memory) (hw : view w = .busy t a)
    (hdone : a.isDone = true) :
    Tracks workload args launch memory (d.finish w t) (Function.update view w .idle) := by
  obtain ⟨r, x, hvalid, hr, hrunning, hstate, hfollows, hshadows, hview⟩ := h.busy hw
  obtain ⟨hexecuting, hrun⟩ := hshadows.running hw
  refine .working hvalid hr hrunning hstate
    (hfollows.finish (hfree _ r hr hrunning hvalid) hrun hdone)
    ⟨hshadows.memory, fun {t'} ht' => ?_, fun {t'} ht' => ?_, fun {v t' a'} hv => ?_⟩ fun v => ?_
  · by_cases heq : t' = t
    · simp [Device.finish, heq] at ht'
    · simpa [heq] using hshadows.idle (by simpa [Device.finish, heq] using ht')
  · by_cases heq : t' = t
    · simp [heq]
    · simpa [heq] using hshadows.finished (by simpa [Device.finish, heq] using ht')
  · have hne : v ≠ w := by
      rintro rfl
      rw [Function.update_self] at hv
      cases hv
    rw [Function.update_of_ne hne] at hv
    obtain ⟨hexecuting', hrun'⟩ := hshadows.running hv
    have hne' : t' ≠ t := by
      rintro rfl
      exact hne (Mark.executing.inj (hexecuting'.symm.trans hexecuting))
    exact ⟨(Function.update_of_ne hne' _ _).trans hexecuting',
      (Function.update_of_ne hne' _ _).trans hrun'⟩
  · by_cases heq : v = w
    · subst heq
      rw [Function.update_self]
      exact (by rintro ⟨⟩)
    · rw [Function.update_of_ne heq]
      exact hview v

/-- A worker advances the step once the tasks of the phase have been executed. -/
theorem Tracks.advance (h : Tracks workload args launch memory d view)
    (hrunning : d.state.status = .running) (hexecuted : d.Executed args)
    (hcalm : ∀ v, view v ≠ .late) :
    Tracks workload args launch memory (d.advance (args.program d.program))
      (Function.update view w .late) := by
  cases h with
  | ready hlaunch hready => rw [hlaunch, hready] at hrunning; cases hrunning
  | @working r x hvalid hr hrunning' hstate hfollows hshadows hview =>
    have hprogram : d.program = r.program := by rw [Device.program, hstate, Device.program]
    have hall : ∀ t < (args.program r.program).taskCount, x.tasks t = .finished := fun t ht =>
      hshadows.finished (hexecuted t (by rwa [hprogram]))
    have hmemory : d.memory = (executePhase workload args r).memory := by
      rw [← hshadows.memory, hfollows.memory_eq hall]
      exact sequential_phaseGraph hvalid r.memory _
    refine .closing (w := w) hr hrunning' ?_ hmemory hexecuted (fun v hne => ?_)
      (Function.update_self ..)
    · rw [hprogram, Device.advance, hstate]
      rfl
    · rw [Function.update_of_ne hne]
      cases hv : view v with
      | idle => rfl
      | busy t a =>
        have hrun := (hshadows.running hv).2
        rw [hall t (hfollows.lt_count (by rw [hrun]; exact nofun))] at hrun
        cases hrun
      | late => exact absurd hv (hcalm v)
  | closing _ _ _ _ _ _ hlate => exact absurd hlate (hcalm _)
  | ended _ hended hstate => rw [hstate] at hrunning; exact absurd hrunning hended.2

/-- How the run goes on depends on the state and the memory only. -/
theorem verdict_congr {program : Program} {generation step : ℕ} (hstate : d'.state = d.state)
    (hmemory : d'.memory = d.memory) :
    verdict args program generation step d' = verdict args program generation step d := by
  unfold verdict predicate successor
  rw [hstate, hmemory]

/-- What is published depends on the state and the memory only. -/
theorem settle_congr (w v generation : ℕ) (outcome : Verdict) (hstate : d'.state = d.state)
    (hmemory : d'.memory = d.memory) :
    (d'.settle w generation outcome).state = (d.settle v generation outcome).state ∧
      (d'.settle w generation outcome).memory = (d.settle v generation outcome).memory := by
  cases outcome with
  | complete | maxSteps | exhausted | next =>
    simp only [Device.settle, Device.stop, Device.enter, hstate, hmemory, and_self]

/-- A worker publishes how the run goes on. -/
theorem Tracks.settle (h : Tracks workload args launch memory d view) (hw : view w = .late)
    {outcome : Verdict}
    (houtcome : outcome = verdict args (args.program d.program) (phaseGeneration d.state.phase)
      d.state.step d)
    (hnext : ValidStages args (d.settle w (phaseGeneration d.state.phase) outcome).program) :
    Tracks workload args launch memory (d.settle w (phaseGeneration d.state.phase) outcome)
      (Function.update view w .idle) := by
  cases h with
  | ready _ _ _ _ _ hview | ended _ _ _ _ hview => rw [hview w] at hw; cases hw
  | working _ _ _ _ _ _ hview => exact absurd hw (hview w)
  | @closing r v hr hrunning hstate hmemory _ hview hlate =>
    obtain rfl : v = w := by
      by_contra hne
      rw [hview w (Ne.symm hne)] at hw
      cases hw
    have hidle : ∀ u, Function.update view v .idle u = .idle := by
      intro u
      by_cases heq : u = v
      · rw [heq, Function.update_self]
      · rw [Function.update_of_ne heq, hview u heq]
    -- The reference ends its phase in the same way.
    have hphase : d.state.phase = r.state.phase := by rw [hstate]; rfl
    have hprogram : d.program = r.program := by rw [Device.program, hphase, Device.program]
    have hend : reference workload args launch memory (d.left.length + 1) =
        ((executePhase workload args r).advance (args.program r.program)).settle 0
          (phaseGeneration d.state.phase) outcome := by
      rw [reference, hr, if_pos hrunning, houtcome, verdict_congr hstate hmemory, hprogram, hphase,
        hstate]
      rfl
    obtain ⟨hstate', hmemory'⟩ := settle_congr v 0 (phaseGeneration d.state.phase) outcome hstate
      hmemory
    rw [← hend] at hstate' hmemory'
    have hrunning' : d.state.status = .running := by
      rw [hstate]
      exact hrunning
    cases outcome with
    | complete | maxSteps | exhausted =>
      refine .ended rfl ?_ hstate' hmemory' hidle
      change (reference workload args launch memory (d.left.length + 1)).state.status.Ended
      rw [← hstate']
      exact ⟨(by rintro ⟨⟩), (by rintro ⟨⟩)⟩
    | next p =>
      have hleft : (d.settle v (phaseGeneration d.state.phase) (.next p)).left.length =
          d.left.length + 1 := by simp [Device.settle, Device.enter]
      refine .working (x := ⟨d.memory, fun _ => .idle⟩) ?_ (by rw [hleft]) ?_ hstate'
        (TaskGraph.Graph.Follows.init (fun _ => rfl) hmemory')
        ⟨rfl, fun _ => rfl, fun ht => absurd rfl ht, fun {u t a} hu => ?_⟩ fun u => ?_
      · rwa [Device.program, ← hstate']
      · rw [← hstate']
        exact hrunning'
      · rw [hidle u] at hu
        cases hu
      · rw [hidle u]
        exact (by rintro ⟨⟩)

/-- A launch that has come to its end has the result of the reference. -/
theorem Tracks.result_eq (h : Tracks workload args launch memory d view)
    (hended : d.state.status.Ended) :
    (reference workload args launch memory (d.left.length + 1)).state.status.Ended ∧
      d.result = (reference workload args launch memory (d.left.length + 1)).result := by
  cases h with
  | ready hlaunch hready => rw [hlaunch, hready] at hended; exact absurd rfl hended.1
  | working _ _ hrunning hstate => rw [hstate, hrunning] at hended; exact absurd rfl hended.2
  | closing _ hrunning hstate =>
    refine absurd ?_ hended.2
    rw [hstate]
    exact hrunning
  | ended hr hended' hstate hmemory =>
    rw [hr, Device.result, hstate, hmemory]
    exact ⟨hended', rfl⟩

end Tracks

end LightRocm.Graph
