import LightRocm.Graph.CompiledRuns
import LightRocm.Graph.DynamicRuns
import LightRocm.Graph.Reference

/-!
# The two schedulers agree

Every turn of either scheduler keeps up with the reference, so a launch that has
come to its end has the result of the reference, whatever the scheduler, the
number of workers and the interleaving.
-/

namespace LightRocm.Graph

/-- A status that is neither the first nor a final one. -/
theorem Status.eq_running {status : Status} (hready : status ≠ .ready) (hended : ¬status.Ended) :
    status = .running := by
  by_contra hrunning
  exact hended ⟨hready, hrunning⟩

variable {workload : Workload} {args : ResidentArgs} {launch : State} {memory : Memory} {w : ℕ}

namespace Dynamic

variable {s : Sys Pc}

/-- What a worker of the dynamic scheduler is doing. -/
def Pc.view : Pc → View
  | .execute claim a => .busy claim.task a
  | .decide _ _ | .settle _ _ => .late
  | _ => .idle

/-- What all workers are doing. -/
def view (s : Sys Pc) : ℕ → View := fun w => (s.pcs w).view

theorem view_turn (s : Sys Pc) (w : ℕ) (d : Device) (pc : Pc) :
    view (s.turn w d pc) = Function.update (view s) w pc.view :=
  Function.comp_update Pc.view s.pcs w pc

/-- A worker that has advanced the step is about to end the phase. -/
theorem closing_of_late {pc : Pc} (h : pc.view = .late) : pc.closing = true := by
  cases pc with
  | decide | settle => rfl
  | _ => cases h

/-- Every turn of the dynamic scheduler keeps up with the reference. -/
theorem Sound.tracks_step (h : Sound args launch s)
    (hvalid : validatePrograms workload args launch = true)
    (hstages : ∀ {p}, p < args.programs.length → ValidStages args p)
    (hcount : args.phaseStateCount ≤ kMaximumPhaseStates)
    (hfree : Separated workload args launch memory)
    (htracks : Tracks workload args launch memory s.device (view s)) :
    Tracks workload args launch memory (Dynamic.step workload args w s).device
      (view (Dynamic.step workload args w s)) := by
  have hfit := h.inv.fits w
  have hnext : ValidStages args (Dynamic.step workload args w s).device.program :=
    hstages (h.step (w := w) hvalid (h.inv.room_step.trans_le hcount)).inv.words.program_lt
  unfold Dynamic.step at hnext ⊢
  rw [view_turn]
  change ValidStages args (turn workload args w s.device (s.pcs w)).1.program at hnext
  change Tracks workload args launch memory (turn workload args w s.device (s.pcs w)).1 _
  have hview : view s w = (s.pcs w).view := rfl
  generalize hpc : s.pcs w = pc at hfit hview hnext
  cases pc with
  | begin =>
    simp only [turn]
    split
    · exact htracks.pass hview
    · split <;> exact htracks.pass hview
  | check | reloadPhase =>
    simp only [turn]
    split <;> exact htracks.pass hview
  | loadClaimed | loadCompleted =>
    simp only [turn]
    split <;> exact htracks.pass hview
  | loadPhase | loadClaimedHigh | loadCompletedHigh | decide | returned =>
    exact htracks.pass hview
  | publish status =>
    obtain ⟨rfl, rfl, hready⟩ := hfit
    exact (htracks.publish (hstages h.inv.words.program_lt) hready).pass hview
  | scan snapshot offset =>
    simp only [turn]
    split
    · rename_i hoffset
      split
      · rename_i hoffers
        rcases h.inv.claim workload (validGraph_of_validate hvalid) hpc hoffset hoffers with
          ⟨t, ht, hboard, hdepends, hclaim⟩ | hclaim
        · rw [hclaim]
          have hmasks : Tracks workload args launch memory
              (s.device.setMasks (phaseGeneration s.device.state.phase)
                (s.device.masks.orClaimed t)) (view s) :=
            htracks.congr rfl rfl rfl fun _ => .inl rfl
          refine hmasks.take hfree (Status.eq_running hfit.1 fun hended => ?_) ht hboard
            fun i hi => Mark.finisher_of_isCompleted (hdepends i hi)
          have hcounted := h.inv.ended hended t ht
          rw [hboard] at hcounted
          cases hcounted
        · rw [hclaim]
          exact htracks.pass hview
      · exact htracks.pass hview
    · exact htracks.pass hview
  | execute c a =>
    simp only [turn]
    split
    · rename_i hdone
      exact htracks.finish hfree hview hdone
    · exact htracks.act hfree hview
  | complete c =>
    have hboard : s.device.board c.task = .executed w := h.inv.held.held (by rw [hpc]; rfl)
    exact htracks.remark (turn workload args w s.device (.complete c)).1 (.completed w) (by rw [hboard]; exact List.cons_ne_nil _ _)
      (List.cons_ne_nil _ _) rfl rfl rfl rfl hview
  | count c =>
    have hboard : s.device.board c.task = .completed w := h.inv.held.held (by rw [hpc]; rfl)
    refine htracks.remark (turn workload args w s.device (.count c)).1 (.counted w) (by rw [hboard]; exact List.cons_ne_nil _ _)
      (List.cons_ne_nil _ _) rfl rfl rfl rfl (hview.trans ?_)
    simp only [turn]
    split <;> rfl
  | advance c =>
    obtain ⟨hrunning, hcurrent, hall⟩ := hfit
    have hprogram : c.program = s.device.program := hcurrent.2
    simp only [turn, hprogram]
    refine htracks.advance hrunning (executed_of_allCounted hall) fun v hv => ?_
    -- Only one worker ends the phase.
    obtain rfl := h.inv.unique (closing_of_late hv) (by rw [hpc]; rfl)
    rw [hview] at hv
    cases hv
  | settle c outcome =>
    obtain ⟨⟨hrunning, hcurrent, hall⟩, houtcome⟩ := hfit
    simp only [turn, hcurrent.1] at hnext ⊢
    exact htracks.settle hview houtcome hnext

/-- Every state of a dynamic launch keeps up with the reference. -/
theorem tracks_of_reaches (hvalid : validatePrograms workload args launch = true)
    (hstages : ∀ {p}, p < args.programs.length → ValidStages args p)
    (hready : launch.status = .ready) (hcount : args.phaseStateCount ≤ kMaximumPhaseStates)
    (hfree : Separated workload args launch memory) {active : ℕ → Prop}
    (hreach : Turns.Reaches (step workload args) active (init launch memory) s) :
    Tracks workload args launch memory s.device (view s) := by
  have hsound : ∀ {s}, Turns.Reaches (step workload args) active (init launch memory) s →
      Sound args launch s := sound_of_reaches hvalid hready hcount
  induction hreach with
  | refl => exact .ready rfl hready rfl rfl (fun _ => rfl) fun _ => rfl
  | turn hreach w hw ih => exact (hsound hreach).tracks_step hvalid hstages hcount hfree ih

end Dynamic

namespace Compiled

variable {s : Sys Pc}

/-- What a worker of the compiled scheduler is doing. -/
def Pc.view (args : ResidentArgs) : Pc → View
  | .execute place taskIndex a => .busy (place.task args taskIndex) a
  | .decide _ _ | .settle _ _ => .late
  | _ => .idle

/-- What all workers are doing. -/
def view (args : ResidentArgs) (s : Sys Pc) : ℕ → View := fun w => (s.pcs w).view args

theorem view_turn (s : Sys Pc) (w : ℕ) (d : Device) (pc : Pc) :
    view args (s.turn w d pc) = Function.update (view args s) w (pc.view args) :=
  Function.comp_update (Pc.view args) s.pcs w pc

/-- A worker that has advanced the step leads. -/
theorem role_of_late {pc : Pc} (d : Device) (h : pc.view args = .late) :
    pc.role d = .leading := by
  cases pc with
  | decide | settle => rfl
  | _ => cases h

/-- All tasks of the phase have been executed when its last stage is over. -/
theorem Sound.executed (h : Sound args launch s) (hstages : ValidStages args s.device.program)
    (hw : w < launch.workerCount) {place : Place} (hpc : s.pcs w = .advance place) :
    s.device.Executed args := by
  have hfit := h.inv.fits w hw
  rw [hpc] at hfit
  obtain ⟨hat, hlast⟩ := hfit
  intro t ht
  have hgate : s.device.gate.1 = s.device.left.length := by
    rw [hat.gate]
    exact hat.number
  have hstage : stageNow args s.device + 1 = args.stageCount s.device.program := by
    rw [hat.stageNow.1, ← hat.program_eq]
    exact hlast
  refine h.inv.executed h.board hw (by rw [hpc]; rfl) hgate (fun j => ?_) ?_
  · rw [hpc]
    exact List.cons_ne_nil _ _
  · rwa [hstage, hstages.stageStart_last]

/-- Every turn of the compiled scheduler keeps up with the reference. -/
theorem Sound.tracks_step (h : Sound args launch s)
    (hvalid : validatePlan workload args launch = true)
    (hcount : args.phaseStateCount ≤ kMaximumPhaseStates) (hw : w < launch.workerCount)
    (hbegin : ∀ v, launch.workerCount ≤ v → s.pcs v = .begin)
    (hfree : Separated workload args launch memory)
    (htracks : Tracks workload args launch memory s.device (view args s)) :
    Tracks workload args launch memory (Compiled.step workload args w s).device
      (view args (Compiled.step workload args w s)) := by
  have hplan := validPlan_of_validate hvalid
  have hfit := h.inv.fits w hw
  have hprogram_lt : ∀ {s : Sys Pc}, Sound args launch s → ValidStages args s.device.program :=
    fun hs => hplan.stages (hs.inv.words.programs (List.mem_of_getElem? (Device.entered_last _)))
  have hstages := hprogram_lt h
  have hnext : ValidStages args (Compiled.step workload args w s).device.program :=
    hprogram_lt (h.step hvalid hw ((h.inv.room_step hw).trans_le hcount))
  unfold Compiled.step at hnext ⊢
  rw [view_turn]
  change ValidStages args (turn workload args w s.device (s.pcs w)).1.program at hnext
  change Tracks workload args launch memory (turn workload args w s.device (s.pcs w)).1 _
  have hview : view args s w = (s.pcs w).view args := rfl
  generalize hpc : s.pcs w = pc at hfit hview hnext
  cases pc with
  | begin =>
    simp only [turn]
    split
    · exact htracks.pass hview
    · split <;> exact htracks.pass hview
  | check =>
    simp only [turn]
    split <;> exact htracks.pass hview
  | spin =>
    simp only [turn]
    split
    · exact htracks.pass hview
    · split <;> exact htracks.pass hview
  | decide | returned => exact htracks.pass hview
  | publish status =>
    obtain ⟨rfl, rfl, hready, -⟩ := hfit
    exact (htracks.publish hstages hready).pass hview
  | loadPhase =>
    refine htracks.note (follow w s.device) rfl rfl rfl rfl (hview.trans ?_)
    simp only [turn]
    split <;> rfl
  | arrive place =>
    refine htracks.note (count w place s.device) rfl rfl rfl rfl (hview.trans ?_)
    simp only [turn]
    split <;> rfl
  | reset place =>
    refine htracks.note (clear place s.device) rfl rfl rfl rfl (hview.trans ?_)
    simp only [turn]
    split <;> rfl
  | release place => exact htracks.note (opens args w place s.device) rfl rfl rfl rfl hview
  | work place taskIndex =>
    obtain ⟨hat, hmine⟩ := hfit
    simp only [turn, h.inv.words.workerCount]
    split
    · rename_i hactive
      have hown := hmine hactive.1
      rw [hat.active_eq] at hown
      have hlt : stageNow args s.device < args.stageCount s.device.program := by
        rw [hat.stageNow.1, ← hat.program_eq]
        exact hat.valid.stage_lt
      have hoffset : (place.descriptor args).taskOffset + taskIndex =
          (args.program s.device.program).taskOffset +
            (args.stageStart s.device.program (stageNow args s.device) + taskIndex) := by
        rw [hat.descriptor_eq, (hstages.stage hlt).taskOffset, Nat.add_assoc]
      rw [Pc.view, hoffset, hat.task_eq hstages]
      rw [hat.descriptor_eq] at hactive
      refine htracks.take hfree hat.running (hstages.lt_taskCount hlt hactive.2) ?_ fun i hi => ?_
      · rw [h.board.now taskIndex hactive.2, hown, hpc]
        exact if_neg (Nat.lt_irrefl _)
      · exact h.board.done i ((hstages.stage hlt).lt_of_depends hactive.2 hi)
    · exact htracks.pass hview
  | execute place taskIndex a =>
    simp only [turn]
    split
    · rename_i hdone
      exact htracks.finish hfree hview hdone
    · exact htracks.act hfree hview
  | advance place =>
    obtain ⟨hat, hlast⟩ := hfit
    simp only [turn, hat.program_eq]
    refine htracks.advance hat.running (h.executed hstages hw hpc) fun v hv => ?_
    -- The others wait for this worker.
    by_cases hlt : v < launch.workerCount
    · have hleads := role_of_late s.device hv
      by_cases heq : v = w
      · subst heq
        rw [hview] at hv
        cases hv
      · rw [(h.inv.gathering.leads w hw (by rw [hpc]; rfl)).2 v hlt heq] at hleads
        cases hleads
    · change (s.pcs v).view args = .late at hv
      rw [hbegin v (Nat.le_of_not_lt hlt)] at hv
      cases hv
  | settle place outcome =>
    obtain ⟨⟨hat, hlast⟩, houtcome⟩ := hfit
    have hgeneration : place.generation = phaseGeneration s.device.state.phase := by
      rw [hat.valid.generation, hat.number, h.inv.words.generation]
    rw [hgeneration, hat.program_eq] at houtcome
    simp only [turn, hgeneration] at hnext ⊢
    exact htracks.settle hview houtcome hnext

/-- Every state of a compiled launch keeps up with the reference. -/
theorem tracks_of_reaches (hvalid : validatePlan workload args launch = true)
    (hready : launch.status = .ready) (hcount : args.phaseStateCount ≤ kMaximumPhaseStates)
    (hfree : Separated workload args launch memory)
    (hreach : Turns.Reaches (step workload args) (· < launch.workerCount) (init launch memory) s) :
    Tracks workload args launch memory s.device (view args s) := by
  have hsound : ∀ {s}, Turns.Reaches (step workload args) (· < launch.workerCount)
      (init launch memory) s → Sound args launch s := sound_of_reaches hvalid hready hcount
  have hbegin : ∀ {s}, Turns.Reaches (step workload args) (· < launch.workerCount)
      (init launch memory) s → ∀ v, launch.workerCount ≤ v → s.pcs v = .begin := by
    intro s hreach v hv
    induction hreach with
    | refl => rfl
    | turn _ w hw ih => exact (Function.update_of_ne (by omega) _ _).trans ih
  induction hreach with
  | refl => exact .ready rfl hready rfl rfl (fun _ => rfl) fun _ => rfl
  | turn hreach w hw ih =>
    exact (hsound hreach).tracks_step hvalid hcount hw (hbegin hreach) hfree ih

end Compiled

open Turns

/-- Whether tasks are apart does not depend on the number of workers. -/
theorem Separated.withWorkers (h : Separated workload args launch memory) (workerCount : ℕ) :
    Separated workload args { launch with workerCount := workerCount } memory := by
  intro n d hd hrunning hvalid
  rw [reference_withWorkers] at hd
  subst hd
  exact h n _ rfl hrunning hvalid

/-- **The schedulers agree.** A graph and a plan that the device accepts, with as many phases as
the host allows, and tasks that do not touch what another one writes unless a chain of
dependencies orders them: every fair run of the dynamic and of the compiled scheduler comes to
its end, and every run that has come to its end has the data, the step, the number of executed
tasks, the status and the error code of the reference. -/
theorem schedulers_agree {workload : Workload} {args : ResidentArgs} {launch : State}
    {memory : Memory} {dynamicWorkers compiledWorkers : ℕ}
    (hgraph : validatePrograms workload args { launch with workerCount := dynamicWorkers } = true)
    (hplan : validatePlan workload args { launch with workerCount := compiledWorkers } = true)
    (hready : launch.status = .ready) (hcount : args.phaseStateCount ≤ kMaximumPhaseStates)
    (hfree : Separated workload args launch memory) :
    ∃ result : Result,
      (∃ n, (reference workload args launch memory n).state.status.Ended ∧
        (reference workload args launch memory n).result = result) ∧
      (∀ s, Reaches (Dynamic.step workload args) (fun _ => True)
          (Dynamic.init { launch with workerCount := dynamicWorkers } memory) s →
        s.device.state.status.Ended → s.device.result = result) ∧
      (∀ (workers : Finset ℕ) (schedule : ℕ → ℕ), 0 ∈ workers → Fair (· ∈ workers) schedule →
        ∃ n, Dynamic.Over args workers (after (Dynamic.step workload args) schedule
          (Dynamic.init { launch with workerCount := dynamicWorkers } memory) n)) ∧
      (∀ s, Reaches (Compiled.step workload args) (· < compiledWorkers)
          (Compiled.init { launch with workerCount := compiledWorkers } memory) s →
        s.device.state.status.Ended → s.device.result = result) ∧
      ∀ schedule : ℕ → ℕ, Fair (· < compiledWorkers) schedule →
        ∃ n, Compiled.Over { launch with workerCount := compiledWorkers }
          (after (Compiled.step workload args) schedule
            (Compiled.init { launch with workerCount := compiledWorkers } memory) n) := by
  have hvalid := validPlan_of_validate hplan
  -- A run that has come to its end has the result of the reference after some phase.
  have hdynamic : ∀ s, Reaches (Dynamic.step workload args) (fun _ => True)
      (Dynamic.init { launch with workerCount := dynamicWorkers } memory) s →
      s.device.state.status.Ended → ∃ n,
        (reference workload args launch memory n).state.status.Ended ∧
        s.device.result = (reference workload args launch memory n).result := by
    intro s hreach hended
    obtain ⟨hend, hresult⟩ := (Dynamic.tracks_of_reaches hgraph hvalid.stages hready hcount
      (hfree.withWorkers _) hreach).result_eq hended
    rw [reference_withWorkers] at hend hresult
    exact ⟨_, hend, hresult⟩
  have hcompiled : ∀ s, Reaches (Compiled.step workload args) (· < compiledWorkers)
      (Compiled.init { launch with workerCount := compiledWorkers } memory) s →
      s.device.state.status.Ended → ∃ n,
        (reference workload args launch memory n).state.status.Ended ∧
        s.device.result = (reference workload args launch memory n).result := by
    intro s hreach hended
    obtain ⟨hend, hresult⟩ := (Compiled.tracks_of_reaches hplan hready hcount
      (hfree.withWorkers _) hreach).result_eq hended
    rw [reference_withWorkers] at hend hresult
    exact ⟨_, hend, hresult⟩
  have hends : ∀ schedule : ℕ → ℕ, Fair (· < compiledWorkers) schedule →
      ∃ n, Compiled.Over { launch with workerCount := compiledWorkers }
        (after (Compiled.step workload args) schedule
          (Compiled.init { launch with workerCount := compiledWorkers } memory) n) := by
    intro schedule hfair
    obtain ⟨n, hn⟩ := Compiled.exists_allReturned hplan hready hcount hfair
    exact ⟨n, (Compiled.sound_of_reaches hplan hready hcount (hfair.reaches _ n)).over_of_allReturned
      ((Nat.zero_le _).trans_lt (hfair.turns 0)) hn⟩
  -- The reference ends, because a run of the compiled scheduler does.
  have hpos : 0 < compiledWorkers := hvalid.graph.workerCount_pos
  obtain ⟨m, hover⟩ := hends _ (fair_mod hpos)
  obtain ⟨n, hn, -⟩ := hcompiled _ ((fair_mod hpos).reaches _ m) hover.ended
  refine ⟨_, ⟨n, hn, rfl⟩, fun s hreach hended => ?_, fun workers schedule hzero hfair => ?_,
    fun s hreach hended => ?_, hends⟩
  · obtain ⟨n', hn', hresult⟩ := hdynamic s hreach hended
    rw [hresult, reference_unique hn' hn]
  · obtain ⟨n', hn'⟩ := Dynamic.exists_allReturned hgraph hready hcount hzero hfair
    exact ⟨n', (Dynamic.sound_of_reaches hgraph hready hcount (hfair.reaches _ n')).over_of_allReturned
      hzero hn'⟩
  · obtain ⟨n', hn', hresult⟩ := hcompiled s hreach hended
    rw [hresult, reference_unique hn' hn]

/-- A workload with two kinds of tasks: one writes its argument to a word, the other one writes
the sum of the words 0 and 1 to the word 2. -/
def adding : Workload where
  validContext _ := true
  validTask _ := true
  execute task _ := if task.opcode = 0 then .write (.word task.argument0) task.argument1 .done
    else .read (.word 0) fun a => .read (.word 1) fun b => .write (.word 2) (a + b) .done

/-- A graph of one program: two tasks write the words 0 and 1, and a third one that depends on
both adds them. -/
def sums : ResidentArgs where
  tasks := [{ argument1 := 3 }, { argument0 := 1, argument1 := 4 },
    { opcode := 1, dependencyMask := 3 }]
  programs := [{ taskCount := 3 }]
  phaseStateCount := 2
  stages := [{ taskCount := 2 }, { taskOffset := 2, taskCount := 1 }]
  compiledPrograms := [{ stageCount := 2 }]

/-- The first two tasks of `sums` write different words, and the third one comes after both. -/
theorem separated_sums (launch : State) (memory : Memory) :
    Separated adding sums launch memory := by
  intro n d _ _ hvalid
  generalize d.program = p at hvalid
  match p with
  | _ + 1 => exact absurd hvalid.stageCount_pos (Nat.lt_irrefl 0)
  | 0 =>
    have hlast : ∀ i < 2, (phaseGraph adding sums 0 d.state.step hvalid).Ordered i 2 := by
      intro i hi
      have hdepends : sums.Depends (sums.program 0) 2 i := by
        interval_cases i <;> decide
      exact .single ⟨by change 2 < 3; norm_num, hdepends⟩
    intro t t' ht ht' hne hbefore hafter l hwrite
    change t < 3 at ht
    change t' < 3 at ht'
    interval_cases t <;> interval_cases t'
    · exact absurd rfl hne
    · obtain rfl : l = .word 1 := List.mem_singleton.mp hwrite
      exact ⟨List.not_mem_nil, by change Loc.word 1 ∉ [Loc.word 0]; decide⟩
    · exact absurd (hlast 0 (by norm_num)) hbefore
    · obtain rfl : l = .word 0 := List.mem_singleton.mp hwrite
      exact ⟨List.not_mem_nil, by change Loc.word 0 ∉ [Loc.word 1]; decide⟩
    · exact absurd rfl hne
    · exact absurd (hlast 1 (by norm_num)) hbefore
    · exact absurd (hlast 0 (by norm_num)) hafter
    · exact absurd (hlast 1 (by norm_num)) hafter
    · exact absurd rfl hne

/-- Any number of workers of the dynamic scheduler and two workers of the compiled one, at a
launch of two phases whose sum is 7. -/
theorem schedulers_agree_sums :
    (reference adding sums {} (fun _ => 0) 2).result.memory (.word 2) = 7 ∧
    ∃ result : Result,
      (∃ n, (reference adding sums {} (fun _ => 0) n).state.status.Ended ∧
        (reference adding sums {} (fun _ => 0) n).result = result) ∧
      (∀ s, Reaches (Dynamic.step adding sums) (fun _ => True)
          (Dynamic.init { workerCount := 3 } fun _ => 0) s →
        s.device.state.status.Ended → s.device.result = result) ∧
      (∀ (workers : Finset ℕ) (schedule : ℕ → ℕ), 0 ∈ workers → Fair (· ∈ workers) schedule →
        ∃ n, Dynamic.Over sums workers (after (Dynamic.step adding sums) schedule
          (Dynamic.init { workerCount := 3 } fun _ => 0) n)) ∧
      (∀ s, Reaches (Compiled.step adding sums) (· < 2)
          (Compiled.init { workerCount := 2 } fun _ => 0) s →
        s.device.state.status.Ended → s.device.result = result) ∧
      ∀ schedule : ℕ → ℕ, Fair (· < 2) schedule →
        ∃ n, Compiled.Over { workerCount := 2 } (after (Compiled.step adding sums) schedule
          (Compiled.init { workerCount := 2 } fun _ => 0) n) :=
  ⟨by decide +kernel, @schedulers_agree adding sums {} (fun _ => 0) 3 2 (by decide +kernel)
    (by decide +kernel) rfl (by decide +kernel) (separated_sums _ _)⟩

/-- Tasks that do nothing are apart. -/
theorem separated_idle (args : ResidentArgs) (launch : State) (memory : Memory) :
    Separated Dynamic.idle args launch memory := by
  intro n d _ _ hvalid t t' _ _ _ _ _ l hwrite
  exact absurd hwrite List.not_mem_nil

/-- A graph of one program with one task that follows itself, with its plan. -/
def planned (phaseStateCount : ℕ) : ResidentArgs :=
  { Dynamic.repeated phaseStateCount with
    stages := [{ taskCount := 1 }], compiledPrograms := [{ stageCount := 1 }] }

/-- With one phase more than generations, the graph and the plan are accepted and the tasks are
apart, but a run of the dynamic scheduler never comes to its end. -/
theorem never_agree_of_many_phases :
    validatePrograms Dynamic.idle (planned (kMaximumPhaseStates + 1)) {} = true ∧
      validatePlan Dynamic.idle (planned (kMaximumPhaseStates + 1)) {} = true ∧
      Separated Dynamic.idle (planned (kMaximumPhaseStates + 1)) {} (fun _ => 0) ∧
      Fair (· ∈ ({0} : Finset ℕ)) (fun _ => 0) ∧
      ∃ m, ∀ n, (after (Dynamic.step Dynamic.idle (planned (kMaximumPhaseStates + 1)))
        (fun _ => 0) (Dynamic.init {} fun _ => 0) (m + n)).device.state.status = .running := by
  have hvalid : validatePrograms Dynamic.idle (planned (kMaximumPhaseStates + 1)) {} = true := by
    decide +kernel
  exact ⟨hvalid, by decide +kernel, separated_idle _ _ _, Dynamic.fair_zero,
    Dynamic.exists_running hvalid ⟨by decide +kernel, rfl, rfl⟩ rfl (Nat.lt_succ_self _)⟩

end LightRocm.Graph
