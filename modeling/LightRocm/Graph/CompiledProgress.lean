import LightRocm.Graph.CompiledHistory

/-!
# Progress of the compiled scheduler

A turn of a worker either changes nothing, because the worker waits for the
status or for a barrier or has returned, or it brings the worker closer to its
end. `Pc.rank` measures how far the worker still has to go: the phases, the
stages of the phase, the tasks of the stage and the accesses of the task.
-/

namespace LightRocm.Graph.Compiled

open Barrier

variable {workload : Workload} {args : ResidentArgs} {launch : State} {memory : Memory}
  {s : Sys Pc} {d d' : Device} {w v : ℕ} {pc : Pc} {place : Place}

/-- How far a worker has to go. -/
abbrev Rank := ℕ × ℕ × ℕ × Action

/-- The order of the ranks. -/
def Rank.Less : Rank → Rank → Prop :=
  Prod.Lex (· < ·) (Prod.Lex (· < ·) (Prod.Lex (· < ·) TaskGraph.Action.Next))

theorem Rank.wellFounded_less : WellFounded Rank.Less :=
  wellFounded_lt.prod_lex (wellFounded_lt.prod_lex
    (wellFounded_lt.prod_lex TaskGraph.Action.wellFounded_next))

section Less

variable {a b c a' b' c' : ℕ} {x x' : Action}

theorem Rank.less_of_phases {r r' : Rank} (h : r'.1 < r.1) : Rank.Less r' r :=
  Prod.Lex.left _ _ h

theorem Rank.less_of_stages (ha : a' = a) (h : b' < b) :
    Rank.Less (a', b', c', x') (a, b, c, x) := by
  subst ha
  exact .right _ (.left _ _ h)

theorem Rank.less_of_tasks (h : c' < c) : Rank.Less (a, b, c', x') (a, b, c, x) :=
  .right _ (.right _ (.left _ _ h))

theorem Rank.less_of_access (h : x'.Next x) : Rank.Less (a, b, c, x') (a, b, c, x) :=
  .right _ (.right _ (.right _ h))

end Less

/-- The rank of a worker in a stage. -/
def Place.rank (place : Place) (args : ResidentArgs) (tasks : ℕ) (action : Action) : Rank :=
  (args.phaseStateCount + 1 - place.number, args.stageCount place.program - place.stage, tasks,
    action)

/-- The rank of a worker between two phases. -/
def Device.rank (args : ResidentArgs) (d : Device) (tasks : ℕ) : Rank :=
  (args.phaseStateCount + 1 - d.left.length, args.stageCount d.program + 1, tasks, .done)

/-- The rank of a worker. -/
def Pc.rank (args : ResidentArgs) (d : Device) : Pc → Rank
  | .begin => (args.phaseStateCount + 3, 0, 0, .done)
  | .publish _ => (args.phaseStateCount + 2, 0, 0, .done)
  | .check => if d.state.status = .running then Device.rank args d 1 else (0, 1, 0, .done)
  | .loadPhase => Device.rank args d 0
  | .work place i => place.rank args (2 * ((place.descriptor args).taskCount - i) + 7) .done
  | .execute place i action =>
    place.rank args (2 * ((place.descriptor args).taskCount - i) + 6) action
  | .arrive place => place.rank args 6 .done
  | .reset place => place.rank args 5 .done
  | .advance place => place.rank args 4 .done
  | .decide place _ => place.rank args 3 .done
  | .settle place _ => place.rank args 2 .done
  | .release place => place.rank args 1 .done
  | .spin place => place.rank args 0 .done
  | .returned _ => (0, 0, 0, .done)

/-- The rank of worker `w` of the system. -/
def rank (args : ResidentArgs) (s : Sys Pc) (w : ℕ) : Rank := (s.pcs w).rank args s.device

/-- The rank of a worker that has read the status. -/
theorem rank_check_le (args : ResidentArgs) (d : Device) :
    (Pc.check.rank args d).1 ≤ args.phaseStateCount + 1 := by
  rw [Pc.rank]
  split
  · exact Nat.sub_le _ _
  · exact Nat.zero_le _

/-- A worker waits for the status or for the closed barrier, or it has returned. -/
def Rests (d : Device) (w : ℕ) : Pc → Prop
  | .begin => w ≠ 0 ∧ d.state.status = .ready
  | .spin place => place.barrier = d.gate
  | .returned _ => True
  | _ => False

/-- A worker that rests changes nothing. -/
theorem Inv.step_of_rests (h : Inv args launch s) (hw : w < launch.workerCount)
    (hrests : Rests s.device w (s.pcs w)) : Compiled.step workload args w s = s := by
  have hsame : ∀ pc, s.pcs w = pc → s.turn w s.device pc = s := by
    rintro pc rfl
    rw [Sys.turn, Function.update_eq_self]
  unfold Compiled.step
  cases hpc : s.pcs w with
  | begin =>
    rw [hpc] at hrests
    simp only [turn, if_neg hrests.1, if_pos hrests.2]
    exact hsame _ hpc
  | spin place =>
    have hword := h.completedMask hw hpc
    rw [hpc] at hrests
    rw [if_pos (Eq.symm hrests)] at hword
    simp only [turn, hword, if_pos (Nat.lt_succ_self place.stage)]
    exact hsame _ hpc
  | returned => exact hsame _ hpc
  | _ =>
    rw [hpc] at hrests
    exact hrests.elim

/-- The phases of a launch are fewer than its `MaskState`s. -/
theorem Inv.number_lt (h : Inv args launch s) (hvalid : place.Valid args launch.base s.device) :
    place.number < args.phaseStateCount := by
  have hroom := h.words.room
  have hlt := (List.getElem?_eq_some_iff.mp hvalid.program).1
  rw [Device.entered, List.length_append, List.length_singleton] at hlt
  omega

/-- The rank of a worker that has passed a barrier. -/
theorem Inv.rank_spin (h : Inv args launch s) (hw : w < launch.workerCount)
    (hpc : s.pcs w = .spin place) (hopen : place.barrier ≠ s.device.gate) :
    Rank.Less ((turn workload args w s.device (.spin place)).2.rank args s.device)
      ((Pc.spin place).rank args s.device) := by
  have hfit := h.fits w hw
  have hword := h.completedMask hw hpc
  have hne : s.device.gate ≠ place.barrier := Ne.symm hopen
  rw [hpc] at hfit
  obtain ⟨hvalid, hnot, hgate⟩ := hfit
  have hafter := hgate.resolve_left hne
  have hnumber := h.number_lt hvalid
  rw [if_neg hne] at hword
  simp only [turn, hword, if_neg (Nat.lt_irrefl _)]
  split
  · rename_i hnext
    refine Rank.less_of_stages rfl ?_
    change args.stageCount place.program - (place.stage + 1) < _
    omega
  · rename_i hnext
    have hlast : place.Last args := by
      by_contra hlast
      exact hnext (hvalid.next_lt hlast)
    rw [Place.after, if_pos hlast] at hafter
    rw [Pc.rank]
    split
    · rename_i hrunning
      refine Rank.less_of_phases ?_
      have hleft : place.number < s.device.left.length := by
        cases h.position with
        | ready hready => exact absurd hready hnot
        | running _ hleft =>
          rw [← hleft, hafter]
          exact Nat.lt_succ_self _
        | opening hv hpc' =>
          have haway : (s.pcs w).role s.device = .away := by rw [hpc, Pc.role, if_neg hopen]
          exact absurd hpc' (h.not_release hw haway hv _)
        | ended hended => exact absurd hrunning hended.2
      change args.phaseStateCount + 1 - s.device.left.length <
        args.phaseStateCount + 1 - place.number
      omega
    · refine Rank.less_of_phases ?_
      change 0 < args.phaseStateCount + 1 - place.number
      omega

/-- A turn of a worker that does not rest brings it closer to its end. -/
theorem Inv.rank_step (h : Inv args launch s) (hplan : ValidPlan args launch)
    (hw : w < launch.workerCount) (hmoves : ¬Rests s.device w (s.pcs w)) :
    Rank.Less (rank args (Compiled.step workload args w s) w) (rank args s w) := by
  have hfit := h.fits w hw
  unfold Compiled.step rank
  rw [Sys.turn_pcs_self]
  change Rank.Less ((turn workload args w s.device (s.pcs w)).2.rank args
    (turn workload args w s.device (s.pcs w)).1) _
  cases hpc : s.pcs w with
  | begin =>
    rw [hpc] at hfit hmoves
    simp only [turn]
    split
    · exact Rank.less_of_phases (Nat.lt_succ_self _)
    · rename_i hzero
      have hready : s.device.state.status ≠ .ready := fun hready => hmoves ⟨hzero, hready⟩
      rw [if_neg hready]
      exact Rank.less_of_phases ((rank_check_le args _).trans_lt (by simp [Pc.rank]))
  | publish status =>
    exact Rank.less_of_phases ((rank_check_le args _).trans_lt (Nat.lt_succ_self _))
  | check =>
    simp only [turn]
    by_cases hrunning : s.device.state.status = .running
    · rw [if_pos hrunning]
      simp only [Pc.rank, if_pos hrunning]
      exact Rank.less_of_tasks Nat.zero_lt_one
    · rw [if_neg hrunning]
      simp only [Pc.rank, if_neg hrunning]
      exact Rank.less_of_stages rfl Nat.zero_lt_one
  | loadPhase =>
    have hprogram : s.device.program < args.programs.length :=
      h.words.programs (List.mem_of_getElem? s.device.entered_last)
    simp only [turn, if_pos (hplan.stages hprogram).stageCount_pos]
    refine Rank.less_of_stages rfl ?_
    change args.stageCount s.device.program - 0 < _
    omega
  | work place i =>
    simp only [turn]
    split
    · exact Rank.less_of_tasks (by omega)
    · exact Rank.less_of_tasks (by omega)
  | execute place i action =>
    rw [hpc] at hfit
    obtain ⟨hat, hactive, -, hi⟩ := hfit
    simp only [turn]
    split
    · refine Rank.less_of_tasks ?_
      rw [h.words.workerCount]
      omega
    · rename_i hdone
      exact Rank.less_of_access ⟨Bool.eq_false_iff.mpr hdone, _, rfl⟩
  | arrive place =>
    simp only [turn]
    split
    · exact Rank.less_of_tasks (by omega)
    · exact Rank.less_of_tasks (by omega)
  | reset place =>
    simp only [turn]
    split
    · exact Rank.less_of_tasks (by omega)
    · exact Rank.less_of_tasks (by omega)
  | advance | decide | settle | release => exact Rank.less_of_tasks (by omega)
  | spin place =>
    rw [hpc] at hmoves
    exact h.rank_spin hw hpc hmoves
  | returned => rw [hpc] at hmoves; exact absurd trivial hmoves

/-- The rank of a worker depends on the control words only, and in a stage only on the worker. -/
theorem rank_congr (hphase : d'.state.phase = d.state.phase)
    (hstatus : d'.state.status = d.state.status) (hleft : d'.left = d.left) :
    pc.rank args d' = pc.rank args d := by
  have hprogram : d'.program = d.program := by rw [Device.program, hphase, Device.program]
  cases pc with
  | check => simp only [Pc.rank, Device.rank, hstatus, hleft, hprogram]
  | loadPhase => simp only [Pc.rank, Device.rank, hleft, hprogram]
  | _ => rfl

/-- A turn leaves the others their ranks. -/
theorem Inv.rank_of_ne (h : Inv args launch s) (hw : w < launch.workerCount)
    (hv : v < launch.workerCount) (hne : v ≠ w) :
    rank args (Compiled.step workload args w s) v = rank args s v := by
  have hfit := h.fits w hw
  have hpcs : (Compiled.step workload args w s).pcs v = s.pcs v := Function.update_of_ne hne _ _
  rw [rank, rank, hpcs]
  change (s.pcs v).rank args (turn workload args w s.device (s.pcs w)).1 = _
  cases hpc : s.pcs w with
  | begin | work | execute =>
    simp only [turn]
    split
    · exact rank_congr rfl rfl rfl
    · exact rank_congr rfl rfl rfl
  | publish status =>
    -- The others wait for the status.
    rw [hpc] at hfit
    obtain ⟨rfl, -, hready, -⟩ := hfit
    rcases h.begin_or_publish hready hv with hbegin | ⟨hzero, -⟩
    · rw [hbegin]
      rfl
    · exact absurd hzero hne
  | settle place outcome =>
    -- The others wait for the barrier.
    have hleads : (s.pcs w).role s.device = .leading := by rw [hpc]; rfl
    obtain ⟨place', hpc', -⟩ := h.waiting hw hleads hv hne
    rw [hpc']
    rfl
  | _ => exact rank_congr rfl rfl rfl

/-- All workers have returned. -/
def AllReturned (workers : ℕ) (s : Sys Pc) : Prop :=
  ∀ w < workers, ∃ status, s.pcs w = .returned status

/-- After the end of the launch only those who have returned rest. -/
theorem Inv.not_rests_of_ended (h : Inv args launch s) (hw : w < launch.workerCount)
    (hended : s.device.state.status.Ended) (hgate : s.device.gate = (s.device.left.length + 1, 0))
    (hreturned : ¬∃ status, s.pcs w = .returned status) : ¬Rests s.device w (s.pcs w) := by
  have hfit := h.fits w hw
  intro hrests
  cases hpc : s.pcs w with
  | begin => rw [hpc] at hfit; exact hfit.2.2 hended
  | spin place =>
    rw [hpc] at hfit hrests
    have hlt := (List.getElem?_eq_some_iff.mp hfit.1.program).1
    have hnumber : place.number = s.device.left.length + 1 :=
      congrArg Prod.fst (Eq.trans hrests hgate)
    rw [Device.entered, List.length_append, List.length_singleton] at hlt
    omega
  | returned status => exact hreturned ⟨status, hpc⟩
  | _ => rw [hpc] at hrests; exact hrests

/-- Until all workers have returned, some worker does not rest. -/
theorem Inv.exists_not_rests (h : Inv args launch s)
    (hnot : ¬AllReturned launch.workerCount s) :
    ∃ w < launch.workerCount, ¬Rests s.device w (s.pcs w) := by
  obtain ⟨v, hv, hmover⟩ := h.gathering.exists_mover
  cases h.position with
  | ready hready =>
    have hzero : 0 < launch.workerCount := by omega
    refine ⟨0, hzero, ?_⟩
    rcases h.begin_or_publish hready hzero with hpc | ⟨-, status, hpc⟩
    · rw [hpc]
      exact fun hrests => hrests.1 rfl
    · rw [hpc]
      exact id
  | running hrunning =>
    refine ⟨v, hv, fun hrests => ?_⟩
    have hfit := h.fits v hv
    cases hpc : s.pcs v with
    | begin =>
      rw [hpc] at hrests
      have hready := hrests.2
      rw [hrunning] at hready
      cases hready
    | spin place =>
      rw [hpc] at hrests hmover
      exact hmover (if_pos hrests)
    | returned status => rw [hpc] at hfit; exact hfit.2.1.2 hrunning
    | _ => rw [hpc] at hrests; exact hrests
  | opening hw hpc =>
    refine ⟨_, hw, ?_⟩
    rw [hpc]
    exact id
  | ended hended hgate =>
    unfold AllReturned at hnot
    push Not at hnot
    obtain ⟨w, hw, hreturned⟩ := hnot
    exact ⟨w, hw, h.not_rests_of_ended hw hended hgate fun ⟨status, hpc⟩ => hreturned status hpc⟩

/-- Every fair run of a launch ends with all its workers returned. -/
theorem exists_allReturned (hvalid : validatePlan workload args launch = true)
    (hready : launch.status = .ready) (hcount : args.phaseStateCount ≤ kMaximumPhaseStates)
    {schedule : ℕ → ℕ} (hfair : Turns.Fair (· < launch.workerCount) schedule) :
    ∃ n, AllReturned launch.workerCount
      (Turns.after (step workload args) schedule (init launch memory) n) := by
  have hplan := validPlan_of_validate hvalid
  have hinit : Sound args launch (init launch memory) :=
    sound_init hvalid hready (hplan.graph.phaseGeneration_lt.trans_le hcount)
  have hturn : ∀ s w, Sound args launch s → ¬AllReturned launch.workerCount s →
      w < launch.workerCount → step workload args w s = s ∨
        Rank.Less (rank args (step workload args w s) w) (rank args s w) ∧
        ∀ v < launch.workerCount, v ≠ w → rank args (step workload args w s) v = rank args s v := by
    intro s w hs _ hw
    by_cases hrests : Rests s.device w (s.pcs w)
    · exact .inl (hs.inv.step_of_rests hw hrests)
    · exact .inr ⟨hs.inv.rank_step hplan hw hrests, fun v hv hne => hs.inv.rank_of_ne hw hv hne⟩
  have hmoves : ∀ s, Sound args launch s → ¬AllReturned launch.workerCount s →
      ∃ w < launch.workerCount, step workload args w s ≠ s := by
    intro s hs hnot
    obtain ⟨w, hw, hrests⟩ := hs.inv.exists_not_rests hnot
    refine ⟨w, hw, fun hsame => ?_⟩
    have hless : Rank.Less (rank args (step workload args w s) w) (rank args s w) :=
      hs.inv.rank_step hplan hw hrests
    rw [hsame] at hless
    exact Rank.wellFounded_less.irrefl.irrefl _ hless
  refine hfair.ends_of_ranks Rank.wellFounded_less (fun s w hs _ hw => ?_) hturn hmoves hinit
  exact hs.step hvalid hw ((hs.inv.room_step hw).trans_le hcount)

end LightRocm.Graph.Compiled
