import LightRocm.Graph.CompiledInvariant

/-!
# The tasks of the compiled scheduler

The tasks of a stage are dealt out to the workers in turn. `Board` says how far
each of them has come: the tasks of earlier stages have been executed, those of
later stages have not been started, and in the current stage every worker has
executed its tasks up to the one it is at.
-/

namespace LightRocm.Graph.Compiled

open Barrier

/-- The current stage of the current phase. -/
def stageNow (args : ResidentArgs) (d : Device) : ℕ :=
  if d.gate.1 < d.left.length then 0
  else if d.gate.1 = d.left.length then d.gate.2
  else args.stageCount d.program

/-- The barrier of the current stage. -/
def here (args : ResidentArgs) (d : Device) : ℕ × ℕ := (d.left.length, stageNow args d)

/-- The mark of task `j` of the current stage, which is one of worker `w`. -/
def Pc.mark (here : ℕ × ℕ) (w j : ℕ) : Pc → Mark
  | .work _ next => if j < next then .executed w else .unclaimed
  | .execute _ current _ =>
    if j < current then .executed w else if j = current then .executing w else .unclaimed
  | .arrive _ | .reset _ | .advance _ | .decide _ _ | .settle _ _ => .executed w
  | .spin place | .release place => if place.barrier = here then .executed w else .unclaimed
  | _ => .unclaimed

/-- Number of workers that have a task in the current stage. -/
def activeNow (args : ResidentArgs) (workers : ℕ) (d : Device) : ℕ :=
  min workers (args.stage d.program (stageNow args d)).taskCount

/-- How far the workers have come. -/
structure Board (args : ResidentArgs) (workers : ℕ) (d : Device) (pcs : ℕ → Pc) : Prop where
  done : ∀ t < args.stageStart d.program (stageNow args d), (d.board t).finisher ≠ []
  now : ∀ j < (args.stage d.program (stageNow args d)).taskCount,
    d.board (args.stageStart d.program (stageNow args d) + j) =
      (pcs (j % activeNow args workers d)).mark (here args d) (j % activeNow args workers d) j
  later : ∀ t, args.stageStart d.program (stageNow args d + 1) ≤ t → d.board t = .unclaimed

variable {workload : Workload} {args : ResidentArgs} {launch : State} {memory : Memory}
  {s : Sys Pc} {d d' : Device} {w v workers : ℕ} {pc : Pc} {pcs pcs' : ℕ → Pc} {place : Place}

/-- In the running phase the current stage is that of the closed barrier. -/
theorem stageNow_of_gate (h : d.gate.1 = d.left.length) : stageNow args d = d.gate.2 := by
  rw [stageNow, if_neg (by omega), if_pos h]

variable {base : ℕ}

/-- The place of a worker that has not passed the closed barrier. -/
theorem Place.At.stageNow (h : place.At args base d) :
    stageNow args d = place.stage ∧ here args d = place.barrier := by
  have hnumber : d.gate.1 = d.left.length := by
    rw [h.gate]
    exact h.number
  have hstage : Compiled.stageNow args d = place.stage := by
    rw [stageNow_of_gate hnumber, h.gate]
    rfl
  refine ⟨hstage, ?_⟩
  rw [Compiled.here, hstage, ← h.number]
  rfl

/-- The stage of such a worker is the current one. -/
theorem Place.At.descriptor_eq (h : place.At args base d) :
    place.descriptor args = args.stage d.program (Compiled.stageNow args d) := by
  rw [Place.descriptor, h.program_eq, h.stageNow.1]

theorem Place.At.active_eq (h : place.At args base d) :
    place.active args workers = activeNow args workers d := by
  rw [Place.active, activeNow, h.descriptor_eq]

/-- The task of a place in its program. -/
theorem Place.At.task_eq (h : place.At args base d) (hstages : ValidStages args d.program) (j : ℕ) :
    place.task args j = args.stageStart d.program (Compiled.stageNow args d) + j := by
  have hlt := h.valid.stage_lt
  rw [h.program_eq] at hlt
  rw [Place.task, Place.descriptor, h.program_eq, (hstages.stage hlt).taskOffset, h.stageNow.1]
  omega

/-- A turn in which the marks stay what they are. -/
theorem Board.congr (h : Board args workers d pcs) (hboard : d'.board = d.board)
    (hprogram : d'.program = d.program) (hhere : here args d' = here args d)
    (hmark : ∀ j < (args.stage d.program (stageNow args d)).taskCount,
      (pcs' (j % activeNow args workers d)).mark (here args d) (j % activeNow args workers d) j =
      (pcs (j % activeNow args workers d)).mark (here args d) (j % activeNow args workers d) j) :
    Board args workers d' pcs' := by
  have hstage : stageNow args d' = stageNow args d := (Prod.mk.inj hhere).2
  have hactive : activeNow args workers d' = activeNow args workers d := by
    rw [activeNow, hprogram, hstage, activeNow]
  refine ⟨?_, fun j hj => ?_, ?_⟩
  · rw [hprogram, hstage, hboard]
    exact h.done
  · rw [hprogram, hstage] at hj ⊢
    rw [hboard, hactive, hhere, hmark j hj]
    exact h.now j hj
  · rw [hprogram, hstage, hboard]
    exact h.later

/-- A turn of worker `w` that leaves the marks of its tasks. -/
theorem Board.pass (h : Board args workers d pcs) (hboard : d'.board = d.board)
    (hprogram : d'.program = d.program) (hhere : here args d' = here args d)
    (hmark : ∀ j < (args.stage d.program (stageNow args d)).taskCount,
      j % activeNow args workers d = w →
        pc.mark (here args d) w j = (pcs w).mark (here args d) w j) :
    Board args workers d' (Function.update pcs w pc) := by
  refine h.congr hboard hprogram hhere fun j hj => ?_
  by_cases heq : j % activeNow args workers d = w
  · rw [heq, Function.update_self, hmark j hj heq]
  · rw [Function.update_of_ne heq]

/-- A task of the current stage gets a new mark from its worker. -/
theorem Board.update (h : Board args workers d pcs) (j : ℕ) (mark : Mark)
    (hboard : d'.board = Function.update d.board
      (args.stageStart d.program (stageNow args d) + j) mark)
    (hprogram : d'.program = d.program) (hhere : here args d' = here args d)
    (hj : j < (args.stage d.program (stageNow args d)).taskCount)
    (hw : j % activeNow args workers d = w) (hself : pc.mark (here args d) w j = mark)
    (hothers : ∀ i, i % activeNow args workers d = w → i ≠ j →
      pc.mark (here args d) w i = (pcs w).mark (here args d) w i) :
    Board args workers d' (Function.update pcs w pc) := by
  have hstage : stageNow args d' = stageNow args d := (Prod.mk.inj hhere).2
  have hactive : activeNow args workers d' = activeNow args workers d := by
    rw [activeNow, hprogram, hstage, activeNow]
  refine ⟨fun t ht => ?_, fun i hi => ?_, fun t ht => ?_⟩
  · rw [hprogram, hstage] at ht
    rw [hboard, Function.update_of_ne (by omega)]
    exact h.done t ht
  · rw [hprogram, hstage] at hi ⊢
    rw [hboard, hactive, hhere]
    by_cases heq : i = j
    · subst heq
      rw [Function.update_self, hw, Function.update_self, hself]
    · rw [Function.update_of_ne (by omega), h.now i hi]
      by_cases hown : i % activeNow args workers d = w
      · rw [hown, Function.update_self, hothers i hown heq]
      · rw [Function.update_of_ne hown]
  · rw [hprogram, hstage] at ht
    have hlt : args.stageStart d.program (stageNow args d + 1) =
        args.stageStart d.program (stageNow args d) +
          (args.stage d.program (stageNow args d)).taskCount := rfl
    rw [hboard, Function.update_of_ne (by omega)]
    exact h.later t ht

/-- A worker that can pass its barrier is not at the current stage. -/
theorem Place.Valid.barrier_ne_here (h : place.Valid args base d)
    (hgate : d.gate = place.after args) : place.barrier ≠ here args d := by
  intro heq
  obtain ⟨hnumber, hstage⟩ := Prod.mk.inj heq
  have hsame : place.program = d.program := by
    have hentered := h.program
    rw [hnumber, d.entered_last] at hentered
    exact (Option.some.inj hentered).symm
  rw [Place.after] at hgate
  unfold stageNow at hstage
  by_cases hlast : place.Last args
  · have hlast' : place.stage + 1 = args.stageCount place.program := hlast
    rw [if_pos hlast] at hgate
    rw [hgate, if_neg (by omega), if_neg (by omega), ← hsame] at hstage
    omega
  · rw [if_neg hlast] at hgate
    rw [hgate, if_neg (by omega), if_pos hnumber] at hstage
    omega

/-- The tasks of the current stage have been executed once all workers have arrived. -/
theorem Board.executed (h : Board args workers d pcs)
    (hall : ∀ w < workers, ∀ j, ((pcs w).mark (here args d) w j).finisher ≠ [])
    (hpos : 0 < workers) {t : ℕ} (ht : t < args.stageStart d.program (stageNow args d + 1)) :
    (d.board t).finisher ≠ [] := by
  by_cases hdone : t < args.stageStart d.program (stageNow args d)
  · exact h.done t hdone
  · obtain ⟨j, rfl⟩ := Nat.exists_eq_add_of_le (Nat.le_of_not_lt hdone)
    have hj : j < (args.stage d.program (stageNow args d)).taskCount := by
      change _ < args.stageStart d.program (stageNow args d) +
        (args.stage d.program (stageNow args d)).taskCount at ht
      omega
    have hactive : 0 < activeNow args workers d := by
      rw [activeNow]
      omega
    rw [h.now j hj]
    have hlt : j % activeNow args workers d < activeNow args workers d := Nat.mod_lt _ hactive
    exact hall _ (hlt.trans_le (Nat.min_le_left _ _)) j

/-- While a worker leads in the current phase, all tasks of the current stage have been
executed. -/
theorem Inv.executed (h : Inv args launch s)
    (hboard : Board args launch.workerCount s.device s.pcs) (hw : w < launch.workerCount)
    (hleads : (s.pcs w).role s.device = .leading)
    (hgate : s.device.gate.1 = s.device.left.length)
    (hself : ∀ j, ((s.pcs w).mark (here args s.device) w j).finisher ≠ []) {t : ℕ}
    (ht : t < args.stageStart s.device.program (stageNow args s.device + 1)) :
    (s.device.board t).finisher ≠ [] := by
  refine hboard.executed (fun v hv j => ?_) (Nat.zero_lt_of_lt hw) ht
  by_cases heq : v = w
  · subst heq
    exact hself j
  · obtain ⟨place, hpc, -, hplace⟩ := h.waiting hw hleads hv heq
    have hhere : place.barrier = here args s.device := by
      rw [← hplace, here, stageNow_of_gate hgate, ← hgate]
    rw [hpc, Pc.mark, if_pos hhere]
    exact List.cons_ne_nil _ _

/-- The tasks of a stage are those that are left of a phase after it. -/
theorem Inv.board_opens (h : Inv args launch s)
    (hboard : Board args launch.workerCount s.device s.pcs) (hw : w < launch.workerCount)
    (hpc : s.pcs w = .release place) :
    Board args launch.workerCount (opens args w place s.device)
      (Function.update s.pcs w (.spin place)) := by
  have hfit := h.fits w hw
  have hleads : (s.pcs w).role s.device = .leading := by rw [hpc]; rfl
  rw [hpc] at hfit
  obtain ⟨hvalid, hgate, hstatus⟩ := hfit
  have hprogram : (opens args w place s.device).program = s.device.program := rfl
  by_cases hnumber : place.number = s.device.left.length
  · -- The stage is over: the next one is the current one.
    have hgate' : s.device.gate.1 = s.device.left.length := by rw [hgate]; exact hnumber
    have hstage : stageNow args s.device = place.stage := by
      rw [stageNow_of_gate hgate', hgate]
      rfl
    have hhere : here args s.device = place.barrier := by
      rw [here, hstage, ← hnumber]
      rfl
    have hsame : place.program = s.device.program := by
      have hentered := hvalid.program
      rw [hnumber, s.device.entered_last] at hentered
      exact (Option.some.inj hentered).symm
    have hnext : stageNow args (opens args w place s.device) = place.stage + 1 := by
      unfold stageNow
      rw [show (opens args w place s.device).gate = place.after args from rfl,
        show (opens args w place s.device).left = s.device.left from rfl, hprogram, Place.after]
      by_cases hlast : place.Last args
      · rw [if_pos hlast, if_neg (by omega), if_neg (by omega), ← hsame]
        exact hlast.symm
      · rw [if_neg hlast, if_neg (by omega), if_pos hnumber]
    have hall : ∀ v < launch.workerCount, ∀ j,
        (Function.update s.pcs w (.spin place) v).mark
          (here args (opens args w place s.device)) v j = .unclaimed := by
      intro v hv j
      have hother : ∀ {place' : Place}, place'.barrier = place.barrier →
          place'.barrier ≠ here args (opens args w place s.device) := by
        intro place' hbarrier
        rw [hbarrier, here, hnext]
        exact fun heq => absurd (Prod.mk.inj heq).2 (Nat.ne_of_lt (Nat.lt_succ_self _))
      by_cases heq : v = w
      · subst heq
        rw [Function.update_self, Pc.mark, if_neg (hother rfl)]
      · obtain ⟨place', hpc', -, hgate''⟩ := h.waiting hw hleads hv heq
        rw [Function.update_of_ne heq, hpc', Pc.mark, if_neg (hother (hgate''.symm.trans hgate))]
    refine ⟨fun t ht => ?_, fun j hj => ?_, fun t ht => ?_⟩
    · rw [hprogram, hnext] at ht
      refine h.executed hboard hw hleads hgate' (fun j => ?_) (by rw [hstage]; exact ht)
      rw [hpc, Pc.mark, if_pos hhere.symm]
      exact List.cons_ne_nil _ _
    · rw [hprogram, hnext] at hj ⊢
      have hactive : j % activeNow args launch.workerCount (opens args w place s.device) <
          launch.workerCount := by
        refine (Nat.mod_lt _ ?_).trans_le (Nat.min_le_left _ _)
        rw [activeNow, hprogram, hnext]
        have hpos := Nat.zero_lt_of_lt hw
        omega
      rw [hall _ hactive]
      exact hboard.later _ (by rw [hstage]; exact Nat.le_add_right _ _)
    · rw [hprogram, hnext] at ht
      refine hboard.later t (le_trans ?_ ht)
      rw [hstage]
      exact stageStart_mono args _ (Nat.le_succ _)
  · -- The phase has been left already.
    obtain ⟨hlast, hnumber'⟩ : place.Last args ∧ place.number + 1 = s.device.left.length := by
      rcases hstatus with hbad | hgood | hbad
      · exact absurd hbad.2.2 hnumber
      · exact ⟨hgood.1, hgood.2.2⟩
      · exact absurd hbad.2.2 hnumber
    have hhere : here args (opens args w place s.device) = here args s.device := by
      unfold here stageNow
      rw [show (opens args w place s.device).gate = place.after args from rfl,
        show (opens args w place s.device).left = s.device.left from rfl, Place.after,
        if_pos hlast, if_neg (by omega), if_pos hnumber', hgate,
        if_pos (show place.barrier.1 < _ by change place.number < _; omega)]
    refine hboard.pass rfl rfl hhere fun j _ _ => ?_
    rw [hpc]
    rfl

/-- The end of a phase leaves the board, or clears it for the next phase. -/
theorem Inv.board_settle (h : Inv args launch s)
    (hboard : Board args launch.workerCount s.device s.pcs) (hw : w < launch.workerCount)
    {outcome : Verdict} (hpc : s.pcs w = .settle place outcome) :
    Board args launch.workerCount (s.device.settle w place.generation outcome)
      (Function.update s.pcs w (.release place)) := by
  have hfit := h.fits w hw
  have hleads : (s.pcs w).role s.device = .leading := by rw [hpc]; rfl
  rw [hpc] at hfit
  obtain ⟨⟨hat, hlast⟩, -⟩ := hfit
  have hstop : ∀ (status : Status) (errorCode : ℕ), Board args launch.workerCount
      (s.device.stop w status errorCode) (Function.update s.pcs w (.release place)) := by
    intro status errorCode
    refine hboard.pass rfl rfl rfl fun j _ _ => ?_
    rw [hpc, Pc.mark, Pc.mark, if_pos hat.stageNow.2.symm]
  cases outcome with
  | complete | maxSteps | exhausted => exact hstop _ _
  | next p =>
    have hlength : (s.device.enter w (makePhase (place.generation + 1) p)).left.length =
        s.device.left.length + 1 := by simp [Device.enter]
    have hgate : (s.device.enter w (makePhase (place.generation + 1) p)).gate.1 =
        s.device.left.length := by
      change s.device.gate.1 = _
      rw [hat.gate]
      exact hat.number
    have hstage : stageNow args (s.device.enter w (makePhase (place.generation + 1) p)) = 0 := by
      rw [stageNow, if_pos (by omega)]
    refine ⟨fun t ht => ?_, fun j hj => ?_, fun _ _ => rfl⟩
    · change t < args.stageStart _ _ at ht
      rw [show (s.device.settle w place.generation (.next p)) =
        s.device.enter w (makePhase (place.generation + 1) p) from rfl, hstage] at ht
      exact absurd ht (Nat.not_lt_zero t)
    · -- All workers wait at the barrier of the phase that is over.
      have hall : ∀ v < launch.workerCount, ∀ i,
          (Function.update s.pcs w (.release place) v).mark
            (here args (s.device.enter w (makePhase (place.generation + 1) p))) v i =
          .unclaimed := by
        intro v hv i
        have hother : ∀ {place' : Place}, place'.barrier = s.device.gate →
            place'.barrier ≠ here args (s.device.enter w (makePhase (place.generation + 1) p)) := by
          intro place' hbarrier heq
          rw [hbarrier] at heq
          have hfirst : s.device.gate.1 = s.device.left.length + 1 := by
            rw [heq]
            exact hlength
          have hgate' : s.device.gate.1 = s.device.left.length := hgate
          omega
        by_cases heq : v = w
        · subst heq
          rw [Function.update_self, Pc.mark, if_neg (hother hat.gate.symm)]
        · obtain ⟨place', hpc', -, hgate'⟩ := h.waiting hw hleads hv heq
          rw [Function.update_of_ne heq, hpc', Pc.mark, if_neg (hother hgate'.symm)]
      refine (hall _ ?_ j).symm
      have hpos := Nat.zero_lt_of_lt hw
      refine (Nat.mod_lt _ ?_).trans_le (Nat.min_le_left _ _)
      rw [activeNow]
      omega

/-- Every turn keeps the board. -/
theorem Inv.board_step (h : Inv args launch s) (hplan : ValidPlan args launch)
    (hboard : Board args launch.workerCount s.device s.pcs) (hw : w < launch.workerCount) :
    Board args launch.workerCount (Compiled.step workload args w s).device
      (Compiled.step workload args w s).pcs := by
  have hfit := h.fits w hw
  have hstages : ValidStages args s.device.program :=
    hplan.stages (h.words.programs (by simp [Device.entered]))
  change Board args launch.workerCount (turn workload args w s.device (s.pcs w)).1
    (Function.update s.pcs w (turn workload args w s.device (s.pcs w)).2)
  cases hpc : s.pcs w with
  | release place => exact h.board_opens hboard hw hpc
  | settle place outcome => exact h.board_settle hboard hw hpc
  | begin =>
    simp only [turn]
    split
    · exact hboard.pass rfl rfl rfl fun j _ _ => by rw [hpc]; rfl
    · refine hboard.pass rfl rfl rfl fun j _ _ => ?_
      rw [hpc]
      split <;> rfl
  | check =>
    refine hboard.pass rfl rfl rfl fun j _ _ => ?_
    rw [hpc]
    simp only [turn]
    split <;> rfl
  | publish | returned => exact hboard.pass rfl rfl rfl fun j _ _ => by rw [hpc]; rfl
  | advance | decide => exact hboard.pass rfl rfl rfl fun j _ _ => by rw [hpc]; rfl
  | loadPhase =>
    refine hboard.pass rfl rfl rfl fun j _ hj => ?_
    rw [hpc]
    simp only [turn, if_pos hstages.stageCount_pos, Pc.mark]
    rw [if_neg]
    have hle := Nat.mod_le j (activeNow args launch.workerCount s.device)
    omega
  | work place taskIndex =>
    rw [hpc] at hfit
    obtain ⟨hat, hmine⟩ := hfit
    simp only [turn, h.words.workerCount]
    split
    · rename_i hnext
      have hown := hmine hnext.1
      rw [hat.active_eq] at hown
      rw [hat.descriptor_eq] at hnext
      refine hboard.update taskIndex (.executing w) ?_ rfl rfl hnext.2 hown ?_ fun i _ hne => ?_
      · rw [← hat.task_eq hstages]
        rfl
      · simp [Pc.mark]
      · rw [hpc]
        simp [Pc.mark, hne]
    · rename_i hnext
      refine hboard.pass rfl rfl rfl fun j hj hown => ?_
      rw [hpc, Pc.mark, Pc.mark, if_pos]
      rw [hat.active_eq, hat.descriptor_eq] at hnext
      have hactive : w < activeNow args launch.workerCount s.device := by
        rw [← hown]
        refine Nat.mod_lt _ ?_
        rw [activeNow]
        have hpos := Nat.zero_lt_of_lt hw
        omega
      by_contra hlt
      exact hnext ⟨hactive, by omega⟩
  | execute place taskIndex action =>
    rw [hpc] at hfit
    obtain ⟨hat, hactive, hmine, hlt⟩ := hfit
    simp only [turn, h.words.workerCount]
    split
    · rw [hat.active_eq] at hmine hactive ⊢
      rw [hat.descriptor_eq] at hlt
      refine hboard.update taskIndex (.executed w) ?_ rfl rfl hlt hmine ?_ fun i hi hne => ?_
      · rw [← hat.task_eq hstages]
        rfl
      · rw [Pc.mark, if_pos (by omega)]
      · -- The next task of the worker comes `active_workers` later.
        rw [hpc, Pc.mark, Pc.mark, if_neg hne]
        have hiff : i < taskIndex + activeNow args launch.workerCount s.device ↔ i < taskIndex := by
          constructor
          · intro hi'
            by_contra hge
            have hdvd : (i - taskIndex) % activeNow args launch.workerCount s.device = 0 := by
              have hmod : i ≡ taskIndex [MOD activeNow args launch.workerCount s.device] :=
                hi.trans hmine.symm
              exact Nat.sub_mod_eq_zero_of_mod_eq hmod
            rw [Nat.mod_eq_of_lt (by omega)] at hdvd
            omega
          · omega
        simp only [hiff]
    · exact hboard.pass rfl rfl rfl fun j _ _ => by rw [hpc]; rfl
  | arrive place =>
    rw [hpc] at hfit
    refine hboard.pass rfl rfl rfl fun j _ _ => ?_
    have hhere := (Place.At.stageNow hfit).2
    rw [hpc]
    simp only [turn]
    split
    · rfl
    · exact if_pos hhere.symm
  | reset place =>
    rw [hpc] at hfit
    refine hboard.pass rfl rfl rfl fun j _ _ => ?_
    have hhere := (Place.At.stageNow hfit).2
    rw [hpc]
    simp only [turn]
    split
    · rfl
    · exact if_pos hhere.symm
  | spin place =>
    rw [hpc] at hfit
    refine hboard.pass rfl rfl rfl fun j _ hj => ?_
    rw [hpc]
    simp only [turn, h.completedMask hw hpc]
    by_cases hgate : s.device.gate = place.barrier
    · rw [if_pos hgate, if_pos (Nat.lt_succ_self _)]
    · rw [if_neg hgate, if_neg (Nat.lt_irrefl _)]
      have hother := hfit.1.barrier_ne_here (hfit.2.2.resolve_left hgate)
      have hspin : (Pc.spin place).mark (here args s.device) w j = .unclaimed := if_neg hother
      rw [hspin]
      split
      · have hle := Nat.mod_le j (activeNow args launch.workerCount s.device)
        exact if_neg (by omega)
      · rfl

/-- Before the launch. -/
theorem board_init (workers : ℕ) : Board args workers (init launch memory).device
    (init launch memory).pcs :=
  ⟨fun t ht => absurd ht (Nat.not_lt_zero t), fun _ _ => rfl, fun _ _ => rfl⟩

end LightRocm.Graph.Compiled
