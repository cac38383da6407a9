import LightRocm.Graph.DynamicProgress
import LightRocm.Graph.DynamicSolo

/-!
# Runs of the dynamic scheduler

In a launch with as many phases as the host allows, every task is executed once
and in order, and every fair run ends. The device alone accepts a larger number
of phases; then a phase can meet the words of an earlier one.
-/

namespace LightRocm.Graph.Dynamic

open Turns

/-- The task that a worker has selected. -/
def Pc.claim? : Pc → Option Claim
  | .execute claim _ | .complete claim | .count claim | .advance claim | .decide claim _
  | .settle claim _ => some claim
  | _ => none

variable {args : ResidentArgs}

/-- A worker that has selected a task is in the current phase. -/
theorem Inv.current {launch : State} {s : Sys Pc} (h : Inv args launch s) {w : ℕ} {claim : Claim}
    (hclaim : (s.pcs w).claim? = some claim) : claim.Current s.device := by
  have hfit := h.fits w
  generalize s.pcs w = pc at hclaim hfit
  cases pc with
  | execute | complete | count | advance => obtain rfl := Option.some.inj hclaim; exact hfit.2.1
  | decide | settle => obtain rfl := Option.some.inj hclaim; exact hfit.1.2.1
  | _ => cases hclaim

/-- **Every task once, in order.** A graph that the device accepts and that has as many phases
as the host allows: in every state of a run, tasks have been executed by one worker each,
after the tasks they depend on and after all earlier phases, and each phase that is over has
been ended by one worker; whoever has selected a task has selected one of the current phase. -/
theorem exactlyOnce_of_reaches {workload : Workload} {args : ResidentArgs} {launch : State}
    {memory : Memory} {s : Sys Pc} (hvalid : validatePrograms workload args launch = true)
    (hready : launch.status = .ready) (hcount : args.phaseStateCount ≤ kMaximumPhaseStates)
    (hreach : Reaches (step workload args) (fun _ => True) (init launch memory) s) :
    ExactlyOnce args s.device ∧
      ∀ w claim, (s.pcs w).claim? = some claim → claim.Current s.device := by
  have hsound := sound_of_reaches hvalid hready hcount hreach
  exact ⟨hsound.history.exactlyOnce, fun w claim hclaim => hsound.inv.current hclaim⟩

/-- A graph whose program 0 with one task is followed by program 1 for ever, in which the second
task depends on the first. -/
def followed (phaseStateCount : ℕ) : ResidentArgs where
  tasks := [{}, {}, { dependencyMask := 1 }]
  programs := [{ taskCount := 1, nextProgram := 1 },
    { taskOffset := 1, taskCount := 2, nextProgram := 1 }]
  phaseStateCount := phaseStateCount

/-- A launch of two phases after its first phase. -/
theorem exactlyOnce_of_reaches_followed :
    let s := solo (step idle (followed 2)) 0 14 (init {} fun _ => 0)
    s.device.left = [0] ∧ ExactlyOnce (followed 2) s.device ∧
      ∀ w claim, (s.pcs w).claim? = some claim → claim.Current s.device :=
  ⟨by decide +kernel, exactlyOnce_of_reaches (by decide +kernel) rfl (by decide +kernel)
    (reaches_solo (step idle (followed 2)) trivial 14 (init {} fun _ => 0))⟩

/-- With one phase more than generations, worker 0 comes to a phase of program 1 that has the
words of the phase of program 0: it takes the second task before the first one. -/
theorem not_exactlyOnce_of_many_phases :
    ∃ s, validatePrograms idle (followed (kMaximumPhaseStates + 1)) {} = true ∧
      Reaches (step idle (followed (kMaximumPhaseStates + 1))) (fun _ => True)
        (init {} fun _ => 0) s ∧
      ¬ExactlyOnce (followed (kMaximumPhaseStates + 1)) s.device := by
  obtain ⟨args, hargs⟩ : ∃ args, args = followed (kMaximumPhaseStates + 1) := ⟨_, rfl⟩
  have hvalid : validatePrograms idle args {} = true := by rw [hargs]; decide +kernel
  have hplain : ∀ p < 2, Plain args (args.program p) 1 := by
    rw [hargs]
    intro p hp
    interval_cases p <;> exact ⟨by decide +kernel, rfl, rfl⟩
  obtain ⟨d, hleads, hlap⟩ := exists_wrapped hvalid (hplain 0 (by norm_num))
    (hplain 1 (by norm_num)) (by rw [hargs]; exact Nat.lt_succ_self _) fun _ => 0
  have hprogram : d.program = 1 := by
    rw [Device.program, hlap.phase, phaseProgram_makePhase (by decide)]
  have hmasks : d.masks = served 1 := by
    rw [Device.masks, hlap.phase, phaseGeneration_makePhase (by decide), Nat.mod_self, hlap.first,
      hargs]
    rfl
  have htasks : d.taskCount args = 2 := by
    rw [Device.taskCount, hprogram, hargs]
    rfl
  have hdepends : args.dependencies (args.program 1) 1 = 1 := by
    rw [hargs]
    decide +kernel
  have hclaim : Leads args (d, .check) _ := leads_claim (k := 1) hlap.running (by omega) (by omega)
    (by rw [hmasks]; decide) (by rw [hmasks]; decide) (by rw [hmasks, hprogram, hdepends]; decide)
  have hrun : Leads args ((init {} fun _ => 0).device, (init {} fun _ => 0).pcs 0) _ :=
    Relation.ReflTransGen.trans hleads hclaim
  rw [← hargs]
  refine ⟨_, hvalid, hrun.reaches, fun honce => ?_⟩
  -- The first task has not been finished in this phase.
  obtain ⟨-, ⟨p, hp, -, hfinished⟩, -⟩ := honce.order.started rfl
  have hlast : d.program = p := by
    simpa [Device.entered, Device.program, Sys.turn, Device.take, Device.setMasks] using hp
  obtain rfl : p = 1 := hlast.symm.trans hprogram
  refine hfinished 0 ?_ (hlap.finishes _ _ hlap.length.ge)
  rw [ResidentArgs.Depends, hdepends]
  rfl

/-- A launch is over: it has one of the final statuses after at most as many phases as there
are `MaskState`s, and every worker that has started has returned with this status. -/
structure Over (args : ResidentArgs) (workers : Finset ℕ) (s : Sys Pc) : Prop where
  status : s.device.state.status = .complete ∨ s.device.state.status = .maxSteps ∨
    s.device.state.status = .invalidProgram
  phases : s.device.entered.length ≤ args.phaseStateCount
  returned : ∀ w ∈ workers, s.pcs w = .returned s.device.state.status

/-- A sound launch whose workers have returned is over. -/
theorem Sound.over_of_allReturned {launch : State} {workers : Finset ℕ} {s : Sys Pc}
    (h : Sound args launch s) (hzero : 0 ∈ workers) (hall : AllReturned workers s) :
    Over args workers s := by
  have hreturned : ∀ w ∈ workers, s.pcs w = .returned s.device.state.status ∧
      s.device.state.status.Ended := by
    intro w hw
    have hfit := h.inv.fits w
    cases hpc : s.pcs w with
    | returned status =>
      rw [hpc] at hfit
      obtain ⟨rfl, hended⟩ := hfit
      exact ⟨rfl, hended⟩
    | _ =>
      have hdone := hall w hw
      rw [hpc] at hdone
      cases hdone
  refine ⟨?_, ?_, fun w hw => (hreturned w hw).1⟩
  · obtain ⟨hready, hrunning⟩ := (hreturned 0 hzero).2
    cases hstatus : s.device.state.status with
    | ready => exact absurd hstatus hready
    | running => exact absurd hstatus hrunning
    | complete => exact .inl rfl
    | maxSteps => exact .inr (.inl rfl)
    | invalidProgram => exact .inr (.inr rfl)
  · have hroom := h.inv.words.room
    rw [Device.entered, List.length_append, List.length_singleton]
    omega

/-- **Every launch ends.** A graph that the device accepts and that has as many phases as the
host allows: while the launch runs, some worker that has begun claims or completes a task on
its own, or ends a phase whose tasks are all done; and if worker 0 and the other workers that
start keep taking turns, then the launch is over at some moment. -/
theorem progress_and_end {workload : Workload} {args : ResidentArgs} {launch : State}
    {memory : Memory} (hvalid : validatePrograms workload args launch = true)
    (hready : launch.status = .ready) (hcount : args.phaseStateCount ≤ kMaximumPhaseStates) :
    (∀ s, Reaches (step workload args) (fun _ => True) (init launch memory) s →
      s.device.state.status = .running → ∃ w n, s.pcs w ≠ .begin ∧
        Moves args w s.device (solo (step workload args) w n s).device) ∧
    ∀ (workers : Finset ℕ) (schedule : ℕ → ℕ), 0 ∈ workers → Fair (· ∈ workers) schedule →
      ∃ n, Over args workers (after (step workload args) schedule (init launch memory) n) := by
  refine ⟨fun s hreach hrunning => ?_, fun workers schedule hzero hfair => ?_⟩
  · exact (sound_of_reaches hvalid hready hcount hreach).inv.exists_moves hvalid hrunning
  · obtain ⟨n, hn⟩ := exists_allReturned hvalid hready hcount hzero hfair
    have hsound := sound_of_reaches hvalid hready hcount (hfair.reaches (init launch memory) n)
    exact ⟨n, hsound.over_of_allReturned hzero hn⟩

/-- Two workers that take turns end a launch of two phases. -/
theorem progress_and_end_followed :
    ∃ n, Over (followed 2) {0, 1} (after (step idle (followed 2)) (· % 2) (init {} fun _ => 0) n) :=
  (progress_and_end (by decide +kernel) rfl (by decide +kernel)).2 {0, 1} (· % 2) (by decide)
    ⟨fun n => by
        have hlt : n % 2 < 2 := Nat.mod_lt _ (by norm_num)
        simp only [Finset.mem_insert, Finset.mem_singleton]
        omega,
      fun w hw n => ⟨2 * n + w, by omega, by
        simp only [Finset.mem_insert, Finset.mem_singleton] at hw
        omega⟩⟩

/-- A launch of one program with one task that follows itself runs for ever if it has more
phases than generations: worker 0 comes to a phase whose only task is marked as claimed. -/
theorem exists_running (hvalid : validatePrograms idle args {} = true)
    (hplain : Plain args (args.program 0) 0) (htasks : (args.program 0).taskCount = 1)
    (hmany : kMaximumPhaseStates < args.phaseStateCount) :
    ∃ m, ∀ n, (after (step idle args) (fun _ => 0) (init {} fun _ => 0) (m + n)).device.state.status =
      .running := by
  obtain ⟨d, hleads, hlap⟩ := exists_wrapped hvalid hplain hplain hmany fun _ => 0
  have hprogram : d.program = 0 := by
    rw [Device.program, hlap.phase, phaseProgram_makePhase (by decide)]
  have hmasks : d.masks = served 1 := by
    rw [Device.masks, hlap.phase, phaseGeneration_makePhase (by decide), Nat.mod_self, hlap.first,
      htasks]
  have htasks' : d.taskCount args = 1 := by rw [Device.taskCount, hprogram, htasks]
  have hrun : Leads args ((init {} fun _ => 0).device, (init {} fun _ => 0).pcs 0) _ := hleads
  obtain ⟨m, hm⟩ := hrun.exists_after
  refine ⟨m, fun n => ?_⟩
  refine running_of_searches (d := d) (by rw [hm]; rfl) hlap.running (by omega) (fun t ht => ?_) ?_ n
  · obtain rfl : t = 0 := by omega
    rw [hmasks]
    decide
  · rw [hm, Sys.turn_pcs_self]
    trivial

/-- A graph of one program with one task that follows itself. -/
def repeated (phaseStateCount : ℕ) : ResidentArgs where
  tasks := [{}]
  programs := [{ taskCount := 1 }]
  phaseStateCount := phaseStateCount

/-- With one phase more than generations, worker 0 comes to a phase whose only task is marked
as claimed: from then on the launch runs for ever. -/
theorem runs_forever_of_many_phases :
    validatePrograms idle (repeated (kMaximumPhaseStates + 1)) {} = true ∧
      Fair (· ∈ ({0} : Finset ℕ)) (fun _ => 0) ∧
      ∃ m, ∀ n, (after (step idle (repeated (kMaximumPhaseStates + 1))) (fun _ => 0)
        (init {} fun _ => 0) (m + n)).device.state.status = .running := by
  have hvalid : validatePrograms idle (repeated (kMaximumPhaseStates + 1)) {} = true := by
    decide +kernel
  exact ⟨hvalid, fair_zero,
    exists_running hvalid ⟨by decide +kernel, rfl, rfl⟩ rfl (Nat.lt_succ_self _)⟩

end LightRocm.Graph.Dynamic
