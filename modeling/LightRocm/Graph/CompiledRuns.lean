import LightRocm.Graph.CompiledProgress
import LightRocm.Graph.DynamicSolo

/-!
# Runs of the compiled scheduler

In a launch with as many phases as the host allows, every task is executed once
and after all earlier stages, the barriers count every worker, and all workers
go through the same phases and return. The device alone accepts a larger number
of phases; then the launch need not end.
-/

namespace LightRocm.Graph.Compiled

open Barrier Turns

variable {workload : Workload} {args : ResidentArgs} {launch : State} {memory : Memory}
  {s : Sys Pc} {w : ℕ}

/-- No arrival at a barrier is lost or counted for another one. -/
structure Counted (args : ResidentArgs) (launch : State) (s : Sys Pc) : Prop where
  /-- Until the last worker clears it, the counter is the number of those who have arrived
  at the closed barrier. -/
  counter : (∀ w < launch.workerCount, (s.pcs w).role s.device ≠ .leading) →
    (s.device.phaseStates (launch.base + s.device.gate.1)).claimedMask =
      (arrivals s.device.trace s.device.gate.1 s.device.gate.2).length
  /-- The barriers of a phase that is over have counted every worker once. -/
  once : ∀ {k p i w : ℕ}, s.device.Over k → s.device.entered[k]? = some p →
    i < args.stageCount p → w < launch.workerCount → (arrivals s.device.trace k i).count w = 1

/-- All workers follow the same phases, and they return with the final status. -/
structure Together (launch : State) (s : Sys Pc) : Prop where
  follows : ∀ w < launch.workerCount, follows s.device.trace w <+: s.device.entered
  returned : ∀ w < launch.workerCount, ∀ status, s.pcs w = .returned status →
    status = s.device.state.status ∧ status.Ended ∧ Compiled.follows s.device.trace w = s.device.entered

/-- A launch is over: all workers have returned with one of the final statuses. -/
structure Over (launch : State) (s : Sys Pc) : Prop where
  status : s.device.state.status = .complete ∨ s.device.state.status = .maxSteps ∨
    s.device.state.status = .invalidProgram
  returned : ∀ w < launch.workerCount, s.pcs w = .returned s.device.state.status

/-- A launch that is over has come to its end. -/
theorem Over.ended (h : Over launch s) : s.device.state.status.Ended := by
  rcases h.status with hstatus | hstatus | hstatus <;> rw [hstatus] <;> exact ⟨nofun, nofun⟩

/-- Whoever has arrived at a barrier is one of the workers. -/
theorem StageOrder.lt_of_mem_arrivals {workers k i : ℕ} {entered : List ℕ} {trace : List Event}
    (h : StageOrder args workers entered trace) (hw : w ∈ arrivals trace k i) : w < workers := by
  obtain ⟨e, he, harrived⟩ := List.mem_filterMap.mp hw
  obtain ⟨before, after, hsplit⟩ := List.append_of_mem he
  cases e with
  | arrived w' k' i' =>
    obtain ⟨-, heq⟩ := Option.ite_none_right_eq_some.mp harrived
    obtain rfl := Option.some.inj heq
    exact (h.arrived hsplit).1
  | _ => cases harrived

/-- The workers that have arrived at the closed barrier, as the trace tells them. -/
theorem Sound.length_arrivals (h : Sound args launch s) :
    (arrivals s.device.trace s.device.gate.1 s.device.gate.2).length =
      (arrived launch.workerCount fun w => (s.pcs w).role s.device).card := by
  have hcurrent := h.barriers.current
  have hlt : ∀ w ∈ arrivals s.device.trace s.device.gate.1 s.device.gate.2,
      w < launch.workerCount := fun w hw => h.barriers.order.lt_of_mem_arrivals hw
  generalize arrivals s.device.trace s.device.gate.1 s.device.gate.2 = names at hcurrent hlt ⊢
  have hnodup : names.Nodup := by
    refine List.nodup_iff_count_le_one.mpr fun w => ?_
    by_cases hw : w < launch.workerCount
    · rw [hcurrent w hw]
      split
      · exact Nat.zero_le _
      · exact le_rfl
    · rw [List.count_eq_zero.mpr fun hmem => hw (hlt w hmem)]
      exact Nat.zero_le _
  rw [← List.toFinset_card_of_nodup hnodup]
  congr 1
  ext w
  rw [List.mem_toFinset, arrived, Finset.mem_filter, Finset.mem_range]
  constructor
  · intro hmem
    refine ⟨hlt w hmem, fun haway => ?_⟩
    have hcount := hcurrent w (hlt w hmem)
    rw [if_pos haway] at hcount
    exact List.count_eq_zero.mp hcount hmem
  · rintro ⟨hw, haway⟩
    have hcount := hcurrent w hw
    rw [if_neg haway] at hcount
    exact List.count_pos_iff.mp (by omega)

/-- The barriers of a sound launch count every worker. -/
theorem Sound.counted (h : Sound args launch s) : Counted args launch s where
  counter hcalm := by
    rw [h.length_arrivals]
    exact h.inv.gathering.count_eq_card hcalm
  once hover hp hi hw := h.arrivals_eq_one hover hp hi hw

/-- The workers of a sound launch follow the same phases. -/
theorem Sound.together (h : Sound args launch s) : Together launch s where
  follows w hw := by
    rw [h.barriers.follows w hw]
    exact List.take_prefix _ _
  returned w hw status hpc := by
    have hfit := h.inv.fits w hw
    have hfollows := h.barriers.follows w hw
    rw [hpc] at hfit hfollows
    obtain ⟨rfl, hended, hgate⟩ := hfit
    refine ⟨rfl, hended, hfollows.trans (List.take_of_length_le ?_)⟩
    change s.device.entered.length ≤ s.device.gate.1
    rw [hgate, Device.entered, List.length_append, List.length_singleton]

/-- A sound launch whose workers have returned is over. -/
theorem Sound.over_of_allReturned (h : Sound args launch s) (hpos : 0 < launch.workerCount)
    (hall : AllReturned launch.workerCount s) : Over launch s := by
  have hreturned : ∀ w < launch.workerCount, s.pcs w = .returned s.device.state.status ∧
      s.device.state.status.Ended := by
    intro w hw
    obtain ⟨status, hpc⟩ := hall w hw
    obtain ⟨rfl, hended, -⟩ := h.together.returned w hw status hpc
    exact ⟨hpc, hended⟩
  refine ⟨?_, fun w hw => (hreturned w hw).1⟩
  obtain ⟨hready, hrunning⟩ := (hreturned 0 hpos).2
  cases hstatus : s.device.state.status with
  | ready => exact absurd hstatus hready
  | running => exact absurd hstatus hrunning
  | complete => exact .inl rfl
  | maxSteps => exact .inr (.inl rfl)
  | invalidProgram => exact .inr (.inr rfl)

/-- **Every stage in order, and every worker returns.** A plan that the device accepts and that
has as many phases as the host allows, with all workers of the launch running: in every state
of a run, tasks have been executed by one worker each, after all tasks of all earlier stages,
the barriers have counted every worker once, and the workers follow the same phases; and if
all workers keep taking turns, then they have all returned with the final status at some
moment. -/
theorem stages_and_return {workload : Workload} {args : ResidentArgs} {launch : State}
    {memory : Memory} (hvalid : validatePlan workload args launch = true)
    (hready : launch.status = .ready) (hcount : args.phaseStateCount ≤ kMaximumPhaseStates) :
    (∀ s, Reaches (step workload args) (· < launch.workerCount) (init launch memory) s →
      ExactlyOnce args s.device ∧
      StageOrder args launch.workerCount s.device.entered s.device.trace ∧
      Counted args launch s ∧ Together launch s) ∧
    ∀ schedule : ℕ → ℕ, Fair (· < launch.workerCount) schedule →
      ∃ n, Over launch (after (step workload args) schedule (init launch memory) n) := by
  refine ⟨fun s hreach => ?_, fun schedule hfair => ?_⟩
  · have hsound := sound_of_reaches hvalid hready hcount hreach
    exact ⟨hsound.history.exactlyOnce, hsound.barriers.order, hsound.counted, hsound.together⟩
  · obtain ⟨n, hn⟩ := exists_allReturned hvalid hready hcount hfair
    have hsound := sound_of_reaches hvalid hready hcount (hfair.reaches (init launch memory) n)
    have hpos : 0 < launch.workerCount := (Nat.zero_le _).trans_lt (hfair.turns 0)
    exact ⟨n, hsound.over_of_allReturned hpos hn⟩

/-- A graph whose only program follows itself: two tasks in its first stage, and one in its
second stage that depends on both. -/
def staged (phaseStateCount : ℕ) : ResidentArgs where
  tasks := [{}, {}, { dependencyMask := 3 }]
  programs := [{ taskCount := 3 }]
  phaseStateCount := phaseStateCount
  stages := [{ taskCount := 2 }, { taskOffset := 2, taskCount := 1 }]
  compiledPrograms := [{ stageCount := 2 }]

/-- Two workers that take turns: after the first phase of a launch of two phases, and at its
end. -/
theorem stages_and_return_staged :
    (∃ s, s.device.left = [0] ∧ ExactlyOnce (staged 2) s.device ∧
      StageOrder (staged 2) 2 s.device.entered s.device.trace ∧
      Counted (staged 2) { workerCount := 2 } s ∧ Together { workerCount := 2 } s) ∧
    ∃ n, Over { workerCount := 2 } (after (step Dynamic.idle (staged 2)) (· % 2)
      (init { workerCount := 2 } fun _ => 0) n) := by
  have hfair : Fair (· < 2) (· % 2) := fair_mod (by norm_num)
  have hrun := @stages_and_return Dynamic.idle (staged 2) { workerCount := 2 } (fun _ => 0)
    (by decide +kernel) rfl (by decide +kernel)
  refine ⟨⟨after (step Dynamic.idle (staged 2)) (· % 2) (init { workerCount := 2 } fun _ => 0) 40,
    ?_, hrun.1 _ (hfair.reaches _ 40)⟩, hrun.2 _ hfair⟩
  decide +kernel

/-- The launch of `staged` by one worker goes on: the worker has not returned, and no phase
that it knows of has a generation of more than 24 bits. -/
def Endless (d : Device) (pc : Pc) : Prop :=
  let going : Prop := d.state.status = .running ∧ d.state.step = 0 ∧ d.state.maxSteps = 1 ∧
    d.state.phase < 2 ^ 32
  match pc with
  | .begin => d.state = {}
  | .publish status => status = .running ∧ d.state = {}
  | .check | .loadPhase => going
  | .work place _ | .execute place _ _ | .arrive place | .reset place | .advance place
  | .release place | .spin place => going ∧ place.phase < 2 ^ 32
  | .decide place step => (going ∧ place.phase < 2 ^ 32) ∧ step = 0
  | .settle place outcome => (going ∧ place.phase < 2 ^ 32) ∧ outcome = .next 0
  | .returned _ => False

/-- The programs of `staged` neither count steps nor branch. -/
theorem program_staged (n p : ℕ) :
    ((staged n).program p).flags = 0 ∧ ((staged n).program p).nextProgram = 0 := by
  match p with
  | 0 => exact ⟨rfl, rfl⟩
  | _ + 1 => exact ⟨rfl, rfl⟩

/-- With one phase more than generations, the bound on the phases is never reached. -/
theorem verdict_staged {d : Device} {phase p : ℕ} (hmax : d.state.maxSteps = 1)
    (hphase : phase < 2 ^ 32) :
    verdict (staged (kMaximumPhaseStates + 1)) ((staged (kMaximumPhaseStates + 1)).program p)
      (phaseGeneration phase) 0 d = .next 0 := by
  obtain ⟨hflags, hnext⟩ := program_staged (kMaximumPhaseStates + 1) p
  have hpredicate : predicate ((staged (kMaximumPhaseStates + 1)).program p) d = false := by
    simp [predicate, Program.has, hflags]
  have hsuccessor : successor ((staged (kMaximumPhaseStates + 1)).program p) d = 0 := by
    simp [successor, Program.has, hflags, hnext]
  have hbound : ¬(staged (kMaximumPhaseStates + 1)).phaseStateCount ≤ phaseGeneration phase + 1 := by
    change ¬kMaximumPhaseStates + 1 ≤ _
    rw [kMaximumPhaseStates_eq, phaseGeneration_eq]
    omega
  rw [verdict, hpredicate, hmax, if_neg (by rintro ⟨⟩), if_neg (by norm_num), if_neg hbound, hsuccessor]

/-- A turn of the only worker. -/
theorem Endless.turn {d : Device} {pc : Pc} (h : Endless d pc) :
    Endless (turn Dynamic.idle (staged (kMaximumPhaseStates + 1)) 0 d pc).1
      (turn Dynamic.idle (staged (kMaximumPhaseStates + 1)) 0 d pc).2 := by
  cases pc with
  | begin =>
    have hstate : d.state = {} := h
    have hvalid : validatePlan Dynamic.idle (staged (kMaximumPhaseStates + 1)) {} = true := by
      decide +kernel
    simp only [Compiled.turn, hstate, hvalid, if_pos]
    exact ⟨rfl, hstate⟩
  | publish status =>
    obtain ⟨rfl, hstate⟩ := h
    simp only [Compiled.turn, Device.publish, hstate]
    exact ⟨rfl, rfl, rfl, by norm_num⟩
  | check =>
    simp only [Compiled.turn, if_pos (And.left h)]
    exact h
  | loadPhase =>
    simp only [Compiled.turn]
    split
    · exact ⟨h, h.2.2.2⟩
    · exact h
  | work | execute | arrive | reset =>
    simp only [Compiled.turn]
    split
    · exact h
    · exact h
  | spin =>
    simp only [Compiled.turn]
    split
    · exact h
    · split
      · exact h
      · exact h.1
  | advance place =>
    obtain ⟨⟨hrunning, hstep, hmax, hphase⟩, hplace⟩ := h
    have hnext : nextStep ((staged (kMaximumPhaseStates + 1)).program place.program) d.state = 0 := by
      simp [nextStep, Program.has, (program_staged _ place.program).1, hstep]
    exact ⟨⟨⟨hrunning, hnext, hmax, hphase⟩, hplace⟩, hnext⟩
  | decide place step =>
    obtain ⟨⟨hgoing, hplace⟩, rfl⟩ := h
    exact ⟨⟨hgoing, hplace⟩, verdict_staged hgoing.2.2.1 hplace⟩
  | settle place outcome =>
    obtain ⟨⟨⟨hrunning, hstep, hmax, -⟩, hplace⟩, rfl⟩ := h
    refine ⟨⟨hrunning, hstep, hmax, ?_⟩, hplace⟩
    change makePhase _ 0 < _
    rw [makePhase_eq (by decide)]
    omega
  | release => exact h
  | returned => exact h

/-- With one phase more than generations, the only worker of a launch never returns. -/
theorem never_returns_of_many_phases :
    validatePlan Dynamic.idle (staged (kMaximumPhaseStates + 1)) {} = true ∧
      Fair (· < ({} : State).workerCount) (fun _ => 0) ∧
      ∀ n status, (after (step Dynamic.idle (staged (kMaximumPhaseStates + 1))) (fun _ => 0)
        (init {} fun _ => 0) n).pcs 0 ≠ .returned status := by
  refine ⟨by decide +kernel, ⟨fun _ => Nat.zero_lt_one, fun w hw n => ⟨n, le_rfl, ?_⟩⟩,
    fun n status hpc => ?_⟩
  · have hlt : w < 1 := hw
    omega
  · have hendless : ∀ n, Endless
        (after (step Dynamic.idle (staged (kMaximumPhaseStates + 1))) (fun _ => 0)
          (init {} fun _ => 0) n).device
        ((after (step Dynamic.idle (staged (kMaximumPhaseStates + 1))) (fun _ => 0)
          (init {} fun _ => 0) n).pcs 0) := by
      intro n
      induction n with
      | zero => exact rfl
      | succ n ih =>
        rw [after]
        generalize after (step Dynamic.idle (staged (kMaximumPhaseStates + 1))) (fun _ => 0)
          (init {} fun _ => 0) n = s at ih ⊢
        rw [step, Sys.turn_pcs_self]
        exact ih.turn
    have hlast := hendless n
    rw [hpc] at hlast
    exact hlast

end LightRocm.Graph.Compiled
