import LightRocm.Graph.CompiledProgress
import LightRocm.Graph.DynamicProgress

/-!
# Every launch ends

Both kernels open in the same way: worker 0 validates the graph and publishes the status, and the
others wait for it. A launch of a graph that is not accepted ends there. Together with the runs of
accepted graphs, every launch with cleared mask words ends.
-/

namespace LightRocm.Graph

open Turns

/-- The opening of a kernel whose workers have program counters in `Pc`. -/
structure Opening (Pc : Type) where
  turn : ℕ → Device → Pc → Device × Pc
  accepts : State → Bool
  begin : Pc
  publish : Status → Pc
  check : Pc
  returned : Status → Pc
  /-- How far a worker is from its end. -/
  rank : Pc → ℕ
  ranks : rank begin = 3 ∧ (∀ status, rank (publish status) = 2) ∧ rank check = 1 ∧
    ∀ status, rank (returned status) = 0
  turn_first : ∀ d,
    turn 0 d begin = (d, publish (if accepts d.state then .running else .invalidProgram))
  turn_begin : ∀ w d, w ≠ 0 →
    turn w d begin = (d, if d.state.status = .ready then begin else check)
  turn_publish : ∀ w d status, turn w d (publish status) = (d.publish status, check)
  turn_check : ∀ w d, d.state.status ≠ .running → turn w d check = (d, returned d.state.status)
  turn_returned : ∀ w d status, turn w d (returned status) = (d, returned status)

namespace Opening

variable {Pc : Type} (opening : Opening Pc)

/-- One turn of a worker in the system. -/
def step (w : ℕ) (s : Sys Pc) : Sys Pc :=
  s.turn w (opening.turn w s.device (s.pcs w)).1 (opening.turn w s.device (s.pcs w)).2

/-- A launch that is not accepted: before the result is published, and after it. -/
inductive Refused (s : Sys Pc) : Prop
  | ready (hrefused : opening.accepts s.device.state = false) (hready : s.device.state.status = .ready)
      (hzero : s.pcs 0 = opening.begin ∨ s.pcs 0 = opening.publish .invalidProgram)
      (hothers : ∀ w, w ≠ 0 → s.pcs w = opening.begin)
  | published (hstatus : s.device.state.status = .invalidProgram)
      (hzero : s.pcs 0 ≠ opening.begin)
      (hall : ∀ w, s.pcs w = opening.begin ∨ s.pcs w = opening.check ∨
        s.pcs w = opening.returned .invalidProgram)

variable {opening} {s : Sys Pc} {w : ℕ}

theorem check_ne_begin : opening.check ≠ opening.begin := fun h => by
  have hranks := opening.ranks
  rw [← h] at hranks
  omega

theorem returned_ne_begin (status : Status) : opening.returned status ≠ opening.begin := fun h => by
  have hranks := opening.ranks
  have hreturned := hranks.2.2.2 status
  rw [h] at hreturned
  omega

/-- What one turn does in a refused launch: nothing while the worker waits or once it has returned,
and otherwise the worker comes closer to its end. -/
theorem Refused.turn (h : opening.Refused s) :
    opening.Refused (opening.step w s) ∧
      ((opening.step w s = s ∧ ((s.device.state.status = .ready ∧ w ≠ 0) ∨
        s.pcs w = opening.returned .invalidProgram)) ∨
      opening.rank ((opening.step w s).pcs w) < opening.rank (s.pcs w)) := by
  obtain ⟨hbegin, hpublish, hcheck, hreturned⟩ := opening.ranks
  have hself : ∀ d pc, (s.turn w d pc).pcs w = pc := fun d pc => s.turn_pcs_self w d pc
  have hother : ∀ d pc v, v ≠ w → (s.turn w d pc).pcs v = s.pcs v := fun d pc v hv =>
    Function.update_of_ne hv _ _
  have hsame : s.turn w s.device (s.pcs w) = s := by
    simp [Sys.turn]
  unfold step
  cases h with
  | ready hrefused hready hzero hothers =>
    by_cases hw : w = 0
    · subst hw
      rcases hzero with hpc | hpc
      · rw [hpc, opening.turn_first, hself, hbegin, hpublish]
        simp only [hrefused, Bool.false_eq_true, if_false]
        refine ⟨.ready hrefused hready (.inr (hself _ _)) fun v hv => ?_, .inr (by omega)⟩
        exact (hother _ _ v hv).trans (hothers v hv)
      · rw [hpc, opening.turn_publish, hself, hcheck, hpublish]
        refine ⟨.published rfl ?_ fun v => ?_, .inr (by omega)⟩
        · rw [hself]
          exact check_ne_begin
        · by_cases hv : v = 0
          · subst hv
            exact .inr (.inl (hself _ _))
          · exact .inl ((hother _ _ v hv).trans (hothers v hv))
    · have hpc := hothers w hw
      have hturn : opening.turn w s.device (s.pcs w) = (s.device, s.pcs w) := by
        rw [hpc, opening.turn_begin w s.device hw, if_pos hready]
      rw [hturn, hsame]
      exact ⟨.ready hrefused hready hzero hothers, .inl ⟨rfl, .inl ⟨hready, hw⟩⟩⟩
  | published hstatus hzero hall =>
    have hafter : ∀ pc, pc = opening.check ∨ pc = opening.returned .invalidProgram →
        opening.Refused (s.turn w s.device pc) := by
      intro pc hpc
      refine .published hstatus ?_ fun v => ?_
      · by_cases hw : 0 = w
        · subst hw
          rw [hself]
          rcases hpc with rfl | rfl
          · exact check_ne_begin
          · exact returned_ne_begin _
        · rw [hother _ _ 0 hw]
          exact hzero
      · by_cases hv : v = w
        · subst hv
          rw [hself]
          exact .inr hpc
        · rw [hother _ _ v hv]
          exact hall v
    rcases hall w with hpc | hpc | hpc
    · have hw : w ≠ 0 := fun hw => hzero (hw ▸ hpc)
      rw [hpc, opening.turn_begin w s.device hw, if_neg (by rw [hstatus]; decide), hself, hbegin, hcheck]
      exact ⟨hafter _ (.inl rfl), .inr (by omega)⟩
    · rw [hpc, opening.turn_check w s.device (by rw [hstatus]; decide), hself, hcheck, hreturned, hstatus]
      exact ⟨hafter _ (.inr rfl), .inr (by omega)⟩
    · have hturn : opening.turn w s.device (s.pcs w) = (s.device, s.pcs w) := by
        rw [hpc, opening.turn_returned]
      rw [hturn, hsame]
      exact ⟨.published hstatus hzero hall, .inl ⟨rfl, .inr hpc⟩⟩

/-- Every fair run of a launch that is not accepted ends. -/
theorem Refused.exists_returned {workers : ℕ} {schedule : ℕ → ℕ} (h : opening.Refused s)
    (hfair : Fair (· < workers) schedule) :
    ∃ n, ∀ w < workers,
      (after opening.step schedule s n).pcs w = opening.returned .invalidProgram := by
  have hpos : 0 < workers := (Nat.zero_le _).trans_lt (hfair.turns 0)
  let rank : Sys Pc → ℕ → ℕ := fun s w => opening.rank (s.pcs w)
  have hturn : ∀ (s : Sys Pc) (w : ℕ), opening.Refused s → opening.step w s = s ∨
      rank (opening.step w s) w < rank s w ∧
        ∀ v < workers, v ≠ w → rank (opening.step w s) v = rank s v := by
    intro s w hs
    refine hs.turn.2.imp And.left fun hless => ⟨hless, fun v _ hv => ?_⟩
    exact congrArg opening.rank (Function.update_of_ne hv _ _)
  have hmoves : ∀ s : Sys Pc, opening.Refused s →
      (¬ ∀ w < workers, s.pcs w = opening.returned .invalidProgram) →
        ∃ w < workers, opening.step w s ≠ s := by
    intro s hs hnot
    push Not at hnot
    obtain ⟨w, hw, hpc⟩ := hnot
    -- While the result is not published worker 0 moves, and then every worker that is left.
    have hmoving : ∀ v, ¬ ((s.device.state.status = .ready ∧ v ≠ 0) ∨
        s.pcs v = opening.returned .invalidProgram) → opening.step v s ≠ s := by
      intro v hv heq
      rcases hs.turn.2 with ⟨-, hor⟩ | hless
      · exact hv hor
      · rw [heq] at hless
        omega
    by_cases hready : s.device.state.status = .ready
    · refine ⟨0, hpos, hmoving 0 ?_⟩
      cases hs with
      | ready _ _ hzero _ =>
        obtain ⟨hbegin, hpublish, -, hreturned⟩ := opening.ranks
        rintro (⟨-, hne⟩ | hpc)
        · exact hne rfl
        · have hrank := hreturned .invalidProgram
          rw [← hpc] at hrank
          have hpublished := hpublish .invalidProgram
          rcases hzero with hzero | hzero <;> rw [hzero] at hrank <;> omega
      | published hstatus _ _ => exact absurd (hready.symm.trans hstatus) (by decide)
    · exact ⟨w, hw, hmoving w fun hor => hor.elim (fun h => hready h.1) hpc⟩
  exact hfair.ends_of_ranks wellFounded_lt (fun s w hs _ _ => hs.turn.1)
    (fun s w hs _ _ => hturn s w hs) hmoves h

end Opening

variable {workload : Workload} {args : ResidentArgs} {launch : State} {memory : Memory}

/-- How far a worker is from its end in a refused launch. -/
def Dynamic.Pc.opened : Dynamic.Pc → ℕ
  | .begin => 3
  | .publish _ => 2
  | .check => 1
  | _ => 0

/-- The opening of the dynamic kernel. -/
def Dynamic.opening (workload : Workload) (args : ResidentArgs) : Opening Dynamic.Pc where
  turn := Dynamic.turn workload args
  accepts := validatePrograms workload args
  begin := .begin
  publish := .publish
  check := .check
  returned := .returned
  rank := Dynamic.Pc.opened
  ranks := ⟨rfl, fun _ => rfl, rfl, fun _ => rfl⟩
  turn_first := fun _ => rfl
  turn_begin := fun _ _ hw => if_neg hw
  turn_publish := fun _ _ _ => rfl
  turn_check := fun _ d hstatus => by
    change (d, if d.state.status = .running then _ else _) = _
    rw [if_neg hstatus]
  turn_returned := fun _ _ _ => rfl

/-- How far a worker is from its end in a refused launch. -/
def Compiled.Pc.opened : Compiled.Pc → ℕ
  | .begin => 3
  | .publish _ => 2
  | .check => 1
  | _ => 0

/-- The opening of the compiled kernel. -/
def Compiled.opening (workload : Workload) (args : ResidentArgs) : Opening Compiled.Pc where
  turn := Compiled.turn workload args
  accepts := validatePlan workload args
  begin := .begin
  publish := .publish
  check := .check
  returned := .returned
  rank := Compiled.Pc.opened
  ranks := ⟨rfl, fun _ => rfl, rfl, fun _ => rfl⟩
  turn_first := fun _ => rfl
  turn_begin := fun _ _ hw => if_neg hw
  turn_publish := fun _ _ _ => rfl
  turn_check := fun _ d hstatus => by
    change (d, if d.state.status = .running then _ else _) = _
    rw [if_neg hstatus]
  turn_returned := fun _ _ _ => rfl

/-- Every launch of the dynamic kernel ends, accepted or not. -/
theorem Dynamic.launch_ends (hready : launch.status = .ready)
    (hcount : args.phaseStateCount ≤ kMaximumPhaseStates) {workers : ℕ} {schedule : ℕ → ℕ}
    (hfair : Fair (· < workers) schedule) :
    ∃ n, ∀ w < workers, ∃ status,
      (after (Dynamic.step workload args) schedule (Dynamic.init launch memory) n).pcs w =
        .returned status := by
  cases hvalid : validatePrograms workload args launch with
  | false =>
    have hrefused : (Dynamic.opening workload args).Refused (Dynamic.init launch memory) :=
      .ready hvalid hready (.inl rfl) fun _ _ => rfl
    obtain ⟨n, hn⟩ := hrefused.exists_returned hfair
    exact ⟨n, fun w hw => ⟨_, hn w hw⟩⟩
  | true =>
    have hrange : (fun w => w < workers) = fun w => w ∈ Finset.range workers := by
      funext w
      rw [Finset.mem_range]
    rw [hrange] at hfair
    have hzero : 0 ∈ Finset.range workers :=
      Finset.mem_range.mpr ((Nat.zero_le _).trans_lt (Finset.mem_range.mp (hfair.turns 0)))
    obtain ⟨n, hn⟩ := @Dynamic.exists_allReturned workload args launch memory _ hvalid hready hcount
      hzero schedule hfair
    refine ⟨n, fun w hw => ?_⟩
    have hreturned := hn w (Finset.mem_range.mpr hw)
    cases hpc : (after (Dynamic.step workload args) schedule (Dynamic.init launch memory) n).pcs w with
    | returned status => exact ⟨status, rfl⟩
    | _ =>
      rw [hpc] at hreturned
      cases hreturned

/-- Every launch of the compiled kernel ends, accepted or not. -/
theorem Compiled.launch_ends (hready : launch.status = .ready)
    (hcount : args.phaseStateCount ≤ kMaximumPhaseStates) {schedule : ℕ → ℕ}
    (hfair : Fair (· < launch.workerCount) schedule) :
    ∃ n, ∀ w < launch.workerCount, ∃ status,
      (after (Compiled.step workload args) schedule (Compiled.init launch memory) n).pcs w =
        .returned status := by
  cases hvalid : validatePlan workload args launch with
  | false =>
    have hrefused : (Compiled.opening workload args).Refused (Compiled.init launch memory) :=
      .ready hvalid hready (.inl rfl) fun _ _ => rfl
    obtain ⟨n, hn⟩ := hrefused.exists_returned hfair
    exact ⟨n, fun w hw => ⟨_, hn w hw⟩⟩
  | true => exact Compiled.exists_allReturned hvalid hready hcount hfair

end LightRocm.Graph
