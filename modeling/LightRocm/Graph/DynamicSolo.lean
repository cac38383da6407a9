import LightRocm.Graph.DynamicWords
import Mathlib.Logic.Relation

/-!
# A dynamic launch with one worker

What worker 0 does while no other worker takes a turn: in every round it claims
the first task that its snapshot offers, and after the last task it ends the
phase. The tasks of these launches do nothing, and their programs neither count
steps nor branch.
-/

namespace LightRocm.Graph.Dynamic

/-- A workload whose tasks do nothing. -/
def idle : Workload where
  validContext _ := true
  validTask _ := true
  execute _ _ := .done

variable {args : ResidentArgs} {d : Device}

/-- Turns of worker 0 alone lead from one point to another. -/
def Leads (args : ResidentArgs) : Device × Pc → Device × Pc → Prop :=
  Relation.ReflTransGen fun a b => turn idle args 0 a.1 a.2 = b

/-- The turns of worker 0 are those of the schedule in which nobody else takes one. -/
theorem Leads.exists_after {s : Sys Pc} {b : Device × Pc}
    (h : Leads args (s.device, s.pcs 0) b) :
    ∃ n, Turns.after (step idle args) (fun _ => 0) s n = s.turn 0 b.1 b.2 := by
  induction h with
  | refl => exact ⟨0, by simp [Sys.turn, Turns.after]⟩
  | @tail b _ _ hturn ih =>
    subst hturn
    obtain ⟨n, hn⟩ := ih
    refine ⟨n + 1, ?_⟩
    rw [Turns.after, hn]
    simp [step, Sys.turn]

/-- A schedule with worker 0 only. -/
theorem fair_zero : Turns.Fair (· ∈ ({0} : Finset ℕ)) fun _ => 0 where
  turns _ := Finset.mem_singleton_self 0
  again _ hw n := ⟨n, le_rfl, (Finset.mem_singleton.mp hw).symm⟩

/-- The turns of worker 0 are a run. -/
theorem Leads.reaches {s : Sys Pc} {b : Device × Pc} (h : Leads args (s.device, s.pcs 0) b) :
    Turns.Reaches (step idle args) (fun _ => True) s (s.turn 0 b.1 b.2) := by
  obtain ⟨n, hn⟩ := h.exists_after
  rw [← hn]
  exact (fair_zero.reaches s n).mono fun _ _ => trivial

/-- The mask words after worker 0 has served the first tasks of a phase. -/
def served : ℕ → MaskState
  | 0 => {}
  | k + 1 => { ((served k).orClaimed k).orCompleted k with
      completedCount := ((served k).completedCount + 1) % 2 ^ 32 }

/-- A small program whose tasks worker 0 serves in their order. -/
def Serves (args : ResidentArgs) (program : Program) : Prop :=
  program.taskCount ≤ 32 ∧ ∀ k < program.taskCount,
    (∀ o < k, (served k).claimedMask &&& taskMask o ≠ 0) ∧
    (served k).claimedMask &&& taskMask k = 0 ∧
    args.dependencies program k &&& (served k).completedMask = args.dependencies program k ∧
    (served k).completedCount = k

instance (args : ResidentArgs) (program : Program) : Decidable (Serves args program) :=
  inferInstanceAs (Decidable (_ ∧ _))

/-- The snapshot of the current words. -/
def look (d : Device) : Snapshot where
  phase := d.state.phase
  claimedMask := d.masks.claimedMask
  completedMask := d.masks.completedMask

/-- The claim of task `k` of the current phase. -/
def pick (d : Device) (k : ℕ) : Claim := ⟨phaseGeneration d.state.phase, d.program, k⟩

/-- Worker 0 reads the words. -/
theorem leads_look (hrunning : d.state.status = .running) (hsmall : d.taskCount args ≤ 32) :
    Leads args (d, .check) (d, .scan (look d) 0) := by
  have hcount : ¬32 < (args.program (phaseProgram d.state.phase)).taskCount := by
    have hle : (args.program (phaseProgram d.state.phase)).taskCount ≤ 32 := hsmall
    omega
  refine .head (b := (d, .loadPhase)) (by simp [turn, hrunning]) ?_
  refine .head (b := (d, .loadClaimed { phase := d.state.phase })) (by simp [turn]) ?_
  refine .head (b := (d, .loadCompleted { phase := d.state.phase, claimedMask := d.masks.claimedMask }))
    (by simp [turn, Snapshot.program, Snapshot.generation, hcount, Device.masks]) ?_
  refine .head (b := (d, .reloadPhase (look d)))
    (by simp [turn, Snapshot.program, Snapshot.generation, hcount, Device.masks, look]) ?_
  exact .head (by simp [turn, look]) .refl

variable {k : ℕ}

/-- Worker 0 passes the tasks that are claimed. -/
theorem leads_scan (hk : k < d.taskCount args)
    (hclaimed : ∀ o < k, (look d).claimedWord o &&& taskMask o ≠ 0) :
    Leads args (d, .scan (look d) 0) (d, .scan (look d) k) := by
  induction k with
  | zero => exact .refl
  | succ k ih =>
    refine .tail (ih (by omega) fun o ho => hclaimed o (by omega)) ?_
    have hlt : k < ((look d).program args).taskCount := by
      have heq : ((look d).program args).taskCount = d.taskCount args := rfl
      omega
    have hnot : ¬(look d).Offers args k := fun hoffers => hclaimed k (by omega) hoffers.1
    simp [turn, hlt, candidate, Nat.mod_eq_of_lt hlt, hnot]

/-- What worker 0 has done when a round is over. -/
def roundEnd (k : ℕ) (d : Device) : Device :=
  { d with
    phaseStates := Function.update d.phaseStates (phaseGeneration d.state.phase)
      { (d.masks.orClaimed k).orCompleted k with
        completedCount := (d.masks.completedCount + 1) % 2 ^ 32 }
    board := Function.update d.board k (.counted 0)
    trace := d.trace ++ [.started 0 d.left.length k, .finished 0 d.left.length k] }

/-- Worker 0 claims task `k`. -/
theorem leads_claim (hrunning : d.state.status = .running) (hsmall : d.taskCount args ≤ 32)
    (hk : k < d.taskCount args) (hclaimed : ∀ o < k, d.masks.claimedMask &&& taskMask o ≠ 0)
    (hfree : d.masks.claimedMask &&& taskMask k = 0)
    (hdepends : args.dependencies (args.program d.program) k &&& d.masks.completedMask =
      args.dependencies (args.program d.program) k) :
    Leads args (d, .check)
      ((d.setMasks (phaseGeneration d.state.phase) (d.masks.orClaimed k)).take 0 k,
        .execute (pick d k) .done) := by
  have hlow : ∀ o, o ≤ k → o >>> 5 = 0 := fun o ho => shiftRight_five_eq_zero.mpr (by omega)
  have hword : ∀ o, o ≤ k → (look d).claimedWord o = d.masks.claimedMask := fun o ho => by
    rw [Snapshot.claimedWord, if_pos (hlow o ho)]
    rfl
  refine (leads_look hrunning hsmall).trans ((leads_scan hk fun o ho => ?_).tail ?_)
  · rw [hword o ho.le]
    exact hclaimed o ho
  have hlt : k < ((look d).program args).taskCount := hk
  have hoffers : (look d).Offers args k := ⟨by rwa [hword k le_rfl], hdepends⟩
  have hmasks : d.phaseStates (look d).generation = d.masks := rfl
  have hbit : d.masks.claimedWord k &&& taskMask k = 0 := by
    rwa [MaskState.claimedWord, if_pos (hlow k le_rfl)]
  simp only [turn, if_pos hlt, candidate, Nat.zero_add, Nat.mod_eq_of_lt hlt, if_pos hoffers, claim,
    hmasks, if_pos hbit]
  rfl

/-- Worker 0 serves task `k`. -/
theorem leads_round (hrunning : d.state.status = .running)
    (hserves : Serves args (args.program d.program)) (hk : k < d.taskCount args)
    (hmasks : d.masks = served k) :
    Leads args (d, .check) (roundEnd k d,
      if k + 1 = d.taskCount args then .advance (pick d k) else .check) := by
  obtain ⟨hsmall, hall⟩ := hserves
  obtain ⟨hclaimed, hfree, hdepends, hcount⟩ := hall k hk
  rw [← hmasks] at hclaimed hfree hdepends hcount
  refine (leads_claim hrunning hsmall hk hclaimed hfree hdepends).trans ?_
  have hmod : (k + 1) % 4294967296 = k + 1 := by
    have hle : d.taskCount args ≤ 32 := hsmall
    exact Nat.mod_eq_of_lt (by omega)
  refine .head rfl (.head rfl (.head ?_ .refl))
  simp only [turn, TaskGraph.Action.isDone, if_true]
  simp [roundEnd, Device.finish, Device.take, Device.setMasks, Device.remark, pick, hcount, hmod,
    Device.taskCount, (MaskState.orClaimed_eq _ _).2.2, (MaskState.orCompleted_eq _ _).2.2]
  congr

/-- Device `d'` is `d` after `k` rounds of the current phase. -/
structure Rounds (k : ℕ) (d d' : Device) : Prop where
  state : d'.state = d.state
  left : d'.left = d.left
  phaseStates : d'.phaseStates =
    Function.update d.phaseStates (phaseGeneration d.state.phase) (served k)
  finishes : ∀ j t, d.left.length < j → finishes d'.trace j t = finishes d.trace j t

/-- One more round. -/
theorem Rounds.roundEnd {d' : Device} (h : Rounds k d d') :
    Rounds (k + 1) d (roundEnd k d') where
  state := h.state
  left := h.left
  phaseStates := by
    simp only [Dynamic.roundEnd, Device.masks, h.state, h.phaseStates, Function.update_self,
      Function.update_idem, served]
  finishes j t hj := by
    rw [← h.finishes j t hj]
    have hne : d.left.length ≠ j := hj.ne
    simp [Dynamic.roundEnd, Graph.finishes, h.left, hne]

/-- The masks after some rounds. -/
theorem Rounds.masks {d' : Device} (h : Rounds k d d') : d'.masks = served k := by
  rw [Device.masks, h.state, h.phaseStates, Function.update_self]

/-- Worker 0 serves the first `k` tasks. -/
theorem leads_rounds (hrunning : d.state.status = .running)
    (hserves : Serves args (args.program d.program)) (hk : k < d.taskCount args)
    (hfresh : d.masks = {}) : ∃ d', Leads args (d, .check) (d', .check) ∧ Rounds k d d' := by
  induction k with
  | zero =>
    refine ⟨d, .refl, rfl, rfl, ?_, fun _ _ _ => rfl⟩
    rw [served, ← hfresh, Device.masks, Function.update_eq_self]
  | succ k ih =>
    obtain ⟨d', hleads, hrounds⟩ := ih (by omega)
    have hprogram : d'.program = d.program := by rw [Device.program, hrounds.state, Device.program]
    have hcount : d'.taskCount args = d.taskCount args := by
      rw [Device.taskCount, hprogram, Device.taskCount]
    have hround := leads_round (d := d') (k := k) (by rw [hrounds.state, hrunning])
      (by rwa [hprogram]) (by omega) hrounds.masks
    rw [hcount, if_neg (by omega)] at hround
    exact ⟨_, hleads.trans hround, hrounds.roundEnd⟩

/-- Device `d'` is `d` after the current phase, which was program `p`'s. -/
structure Phased (args : ResidentArgs) (d d' : Device) : Prop where
  status : d'.state.status = d.state.status
  step : d'.state.step = d.state.step
  maxSteps : d'.state.maxSteps = d.state.maxSteps
  phase : d'.state.phase =
    makePhase (phaseGeneration d.state.phase + 1) (args.program d.program).nextProgram
  left : d'.left.length = d.left.length + 1
  phaseStates : d'.phaseStates = Function.update d.phaseStates (phaseGeneration d.state.phase)
    (served (d.taskCount args))
  finishes : ∀ j t, d.left.length < j → finishes d'.trace j t = finishes d.trace j t

/-- Worker 0 serves a phase and ends it. -/
theorem leads_phase (hrunning : d.state.status = .running)
    (hserves : Serves args (args.program d.program)) (hpos : 0 < d.taskCount args)
    (hflags : (args.program d.program).flags = 0) (hfresh : d.masks = {})
    (hsteps : d.state.step < d.state.maxSteps) (hstep : d.state.step < 2 ^ 32)
    (hroom : phaseGeneration d.state.phase + 1 < args.phaseStateCount) :
    ∃ d', Leads args (d, .check) (d', .check) ∧ Phased args d d' := by
  obtain ⟨k, hk⟩ := Nat.exists_eq_add_of_lt hpos
  obtain ⟨d₁, hleads, hrounds⟩ := leads_rounds (k := k) hrunning hserves (by omega) hfresh
  have hprogram : d₁.program = d.program := by rw [Device.program, hrounds.state, Device.program]
  have hcount : d₁.taskCount args = d.taskCount args := by
    rw [Device.taskCount, hprogram, Device.taskCount]
  have hround := leads_round (d := d₁) (k := k) (by rw [hrounds.state, hrunning])
    (by rwa [hprogram]) (by omega) hrounds.masks
  rw [hcount, if_pos (by omega)] at hround
  have hlast : Rounds (d.taskCount args) d (roundEnd k d₁) := by
    rw [show d.taskCount args = k + 1 by omega]
    exact hrounds.roundEnd
  generalize roundEnd k d₁ = d₂ at hround hlast
  have hpick : pick d₁ k = pick d k := by rw [pick, hrounds.state, hprogram, pick]
  have hnext : nextStep (args.program d.program) d₂.state = d.state.step := by
    simpa [nextStep, Program.has, hflags, hlast.state] using hstep
  have hverdict : verdict args (args.program d.program) (phaseGeneration d.state.phase)
      d.state.step (d₂.advance (args.program d.program)) =
      .next (args.program d.program).nextProgram := by
    have hmax : ¬(d₂.advance (args.program d.program)).state.maxSteps ≤ d.state.step := by
      rw [show (d₂.advance (args.program d.program)).state.maxSteps = d₂.state.maxSteps from rfl,
        hlast.state]
      omega
    simp [verdict, predicate, successor, Program.has, hflags, hmax, hroom]
  rw [hpick] at hround
  refine ⟨(d₂.advance (args.program d.program)).enter 0 (makePhase
    (phaseGeneration d.state.phase + 1) (args.program d.program).nextProgram),
    (hleads.trans hround).trans (.head rfl (.head rfl (.head ?_ .refl))), ?_⟩
  · simp only [turn, pick, hnext, hverdict]
    rfl
  · refine ⟨?_, ?_, ?_, rfl, ?_, hlast.phaseStates, fun j t hj => ?_⟩
    · simp [Device.enter, Device.advance, hlast.state]
    · simpa [Device.enter, Device.advance] using hnext
    · simp [Device.enter, Device.advance, hlast.state]
    · simp [Device.enter, Device.advance, hlast.left]
    · rw [← hlast.finishes j t hj]
      simp [Device.enter, Device.advance, Graph.finishes]

/-! ## As many phases as generations -/

/-- A program that worker 0 serves without counting steps, and that names its successor. -/
structure Plain (args : ResidentArgs) (program : Program) (next : ℕ) : Prop where
  serves : Serves args program
  flags : program.flags = 0
  nextProgram : program.nextProgram = next

/-- A launch at the beginning of phase `g`, which is program `p`'s. The words of the phases to
come are zero as far as there are generations, and those of the first phase are `first`. -/
structure Lap (p g : ℕ) (first : MaskState) (d : Device) : Prop where
  running : d.state.status = .running
  steps : d.state.step < d.state.maxSteps
  step : d.state.step < 2 ^ 32
  phase : d.state.phase = makePhase g p
  length : d.left.length = g
  first : d.phaseStates 0 = first
  fresh : ∀ i, g ≤ i → i < kMaximumPhaseStates → d.phaseStates i = {}
  finishes : ∀ j t, g ≤ j → finishes d.trace j t = []

variable {p : ℕ} {first : MaskState}

/-- One lap: the next phase is entered, also when its generation does not fit the word. -/
theorem Lap.next {g : ℕ} (h : Lap p g first d) (hvalid : ValidGraph args {})
    (hp : p < args.programs.length) (hplain : Plain args (args.program p) p) (hpos : 0 < g)
    (hg : g < kMaximumPhaseStates) (hcount : kMaximumPhaseStates < args.phaseStateCount) :
    ∃ d', Leads args (d, .check) (d', .check) ∧ Lap p (g + 1) first d' := by
  have hle : p < kMaximumPrograms := hp.trans_le hvalid.programs_le
  have hprogram : d.program = p := by rw [Device.program, h.phase, phaseProgram_makePhase hle]
  have hgeneration : phaseGeneration d.state.phase = g := by
    rw [h.phase, phaseGeneration_makePhase hle, Nat.mod_eq_of_lt hg]
  have htasks : 0 < d.taskCount args := by
    rw [Device.taskCount, hprogram]
    exact (hvalid.program hp).taskCount_pos
  obtain ⟨d', hleads, hphased⟩ := leads_phase h.running (by rw [hprogram]; exact hplain.serves)
    htasks (by rw [hprogram]; exact hplain.flags)
    (by rw [Device.masks, hgeneration]; exact h.fresh g le_rfl hg) h.steps h.step
    (by rw [hgeneration]; omega)
  refine ⟨d', hleads, ?_⟩
  have hother : ∀ i, i ≠ g → d'.phaseStates i = d.phaseStates i := by
    intro i hi
    rw [hphased.phaseStates, hgeneration, Function.update_of_ne hi]
  refine ⟨hphased.status.trans h.running, ?_, ?_, ?_, ?_, ?_, fun i hi hlt => ?_, fun j t hj => ?_⟩
  · rw [hphased.step, hphased.maxSteps]
    exact h.steps
  · rw [hphased.step]
    exact h.step
  · rw [hphased.phase, hgeneration, hprogram, hplain.nextProgram]
  · rw [hphased.left, h.length]
  · rw [hother 0 (by omega), h.first]
  · rw [hother i (by omega)]
    exact h.fresh i (by omega) hlt
  · rw [hphased.finishes j t (by rw [h.length]; omega)]
    exact h.finishes j t (by omega)

/-- Worker 0 comes to the phase whose generation is that of the first phase again. -/
theorem Lap.laps (h : Lap p 1 first d) (hvalid : ValidGraph args {})
    (hp : p < args.programs.length) (hplain : Plain args (args.program p) p)
    (hcount : kMaximumPhaseStates < args.phaseStateCount) :
    ∃ d', Leads args (d, .check) (d', .check) ∧ Lap p kMaximumPhaseStates first d' := by
  have hlaps : ∀ g, 1 ≤ g → g ≤ kMaximumPhaseStates →
      ∃ d', Leads args (d, .check) (d', .check) ∧ Lap p g first d' := by
    intro g hpos
    induction g, hpos using Nat.le_induction with
    | base => exact fun _ => ⟨d, .refl, h⟩
    | succ g hpos ih =>
      intro hle
      obtain ⟨d₁, hleads₁, hlap₁⟩ := ih (by omega)
      obtain ⟨d₂, hleads₂, hlap₂⟩ := hlap₁.next hvalid hp hplain hpos hle hcount
      exact ⟨d₂, hleads₁.trans hleads₂, hlap₂⟩
  refine hlaps _ ?_ le_rfl
  rw [kMaximumPhaseStates_eq]
  norm_num

/-- **The generations wrap.** A launch that the device accepts with more phases than
generations comes to a phase that has the words of the first phase. -/
theorem exists_wrapped (hvalid : validatePrograms idle args {} = true)
    (hfirst : Plain args (args.program 0) p) (hplain : Plain args (args.program p) p)
    (hcount : kMaximumPhaseStates < args.phaseStateCount) (memory : Memory) :
    ∃ d, Leads args ((init {} memory).device, .begin) (d, .check) ∧
      Lap p kMaximumPhaseStates (served (args.program 0).taskCount) d := by
  have hgraph := validGraph_of_validate hvalid
  have hzero := hgraph.program hgraph.phaseProgram_lt
  have hp : p < args.programs.length := hfirst.nextProgram ▸ hzero.nextProgram_lt
  have hmax := kMaximumPhaseStates_eq
  -- The launch begins.
  have hbegin : Leads args ((init {} memory).device, .begin)
      ((init {} memory).device.publish .running, .check) := by
    refine .head (b := ((init {} memory).device, .publish .running)) ?_ (.head rfl .refl)
    simp [turn, init, hvalid]
  obtain ⟨d₀, hd₀⟩ : ∃ d₀, d₀ = (init {} memory).device.publish .running := ⟨_, rfl⟩
  have hprogram : d₀.program = 0 := by
    rw [Device.program, phaseProgram_eq, hd₀]
    rfl
  have hgeneration : phaseGeneration d₀.state.phase = 0 := by
    rw [phaseGeneration_eq, hd₀]
    exact Nat.zero_div 256
  have hempty : ∀ i, d₀.phaseStates i = {} := by
    rw [hd₀]
    exact fun _ => rfl
  have hstep : d₀.state.step = 0 ∧ d₀.state.maxSteps = 1 := by
    rw [hd₀]
    exact ⟨rfl, rfl⟩
  have hrunning : d₀.state.status = .running := by rw [hd₀]; rfl
  have hleft : d₀.left.length = 0 ∧ d₀.trace = [] := by
    rw [hd₀]
    exact ⟨rfl, rfl⟩
  rw [← hd₀] at hbegin
  -- Its first phase is that of program 0.
  obtain ⟨d₁, hleads₁, hphased⟩ := leads_phase hrunning (by rw [hprogram]; exact hfirst.serves)
    (by rw [Device.taskCount, hprogram]; exact hzero.taskCount_pos)
    (by rw [hprogram]; exact hfirst.flags) (hempty _) (by omega) (by omega)
    (by rw [hgeneration]; omega)
  have hlap : Lap p 1 (served (args.program 0).taskCount) d₁ := by
    have hstates := hphased.phaseStates
    rw [hgeneration, Device.taskCount, hprogram] at hstates
    refine ⟨hphased.status.trans hrunning, ?_, ?_, ?_, ?_, ?_, fun i hi _ => ?_, fun j t hj => ?_⟩
    · rw [hphased.step, hphased.maxSteps]
      omega
    · rw [hphased.step]
      omega
    · rw [hphased.phase, hgeneration, hprogram, hfirst.nextProgram]
    · rw [hphased.left, hleft.1]
    · rw [hstates, Function.update_self]
    · rw [hstates, Function.update_of_ne (by omega)]
      exact hempty i
    · rw [hphased.finishes j t (by omega), hleft.2]
      rfl
  obtain ⟨d₂, hleads₂, hlap₂⟩ := hlap.laps hgraph hp hplain hcount
  exact ⟨d₂, (hbegin.trans hleads₁).trans hleads₂, hlap₂⟩

/-! ## A phase without a task to claim -/

/-- Worker 0 looks for a task. -/
def Searches (d : Device) : Pc → Prop
  | .check | .loadPhase => True
  | .loadClaimed snapshot => snapshot.phase = d.state.phase
  | .loadCompleted snapshot | .reloadPhase snapshot | .scan snapshot _ =>
    snapshot.phase = d.state.phase ∧ snapshot.claimedMask = d.masks.claimedMask
  | _ => False

/-- Where all tasks are claimed and nobody executes one, worker 0 looks for a task in vain. -/
theorem turn_of_searches {pc : Pc} (hrunning : d.state.status = .running)
    (hsmall : d.taskCount args ≤ 32)
    (hclaimed : ∀ t < d.taskCount args, d.masks.claimedMask &&& taskMask t ≠ 0)
    (hsearches : Searches d pc) :
    (turn idle args 0 d pc).1 = d ∧ Searches d (turn idle args 0 d pc).2 := by
  cases pc with
  | check => simp [turn, hrunning, Searches]
  | loadPhase => simp [turn, Searches]
  | loadClaimed snapshot =>
    have hphase : snapshot.phase = d.state.phase := hsearches
    have hcount : ¬32 < (snapshot.program args).taskCount := by
      rw [Snapshot.program, hphase]
      exact Nat.not_lt.mpr hsmall
    simp [turn, hcount, Searches, hphase, Snapshot.generation, Device.masks]
  | loadCompleted snapshot =>
    obtain ⟨hphase, hmask⟩ := hsearches
    have hcount : ¬32 < (snapshot.program args).taskCount := by
      rw [Snapshot.program, hphase]
      exact Nat.not_lt.mpr hsmall
    simp [turn, hcount, Searches, hphase, hmask]
  | reloadPhase snapshot =>
    obtain ⟨hphase, hmask⟩ := hsearches
    simp [turn, hphase, Searches, hmask]
  | scan snapshot offset =>
    obtain ⟨hphase, hmask⟩ := hsearches
    have htasks : (snapshot.program args).taskCount = d.taskCount args := by
      rw [Snapshot.program, hphase]
      rfl
    simp only [turn]
    split
    · rename_i hoffset
      have hlt : offset < d.taskCount args := htasks ▸ hoffset
      have hnot : ¬snapshot.Offers args (candidate 0 offset (snapshot.program args).taskCount) := by
        rintro ⟨hfree, -⟩
        rw [candidate, Nat.zero_add, Nat.mod_eq_of_lt hoffset, Snapshot.claimedWord,
          if_pos (shiftRight_five_eq_zero.mpr (by omega)), hmask] at hfree
        exact hclaimed offset hlt hfree
      rw [if_neg hnot]
      exact ⟨rfl, hphase, hmask⟩
    · exact ⟨rfl, trivial⟩
  | _ => exact hsearches.elim

/-- Then the launch runs for ever. -/
theorem running_of_searches {s : Sys Pc} {m : ℕ}
    (hdevice : (Turns.after (step idle args) (fun _ => 0) s m).device = d)
    (hrunning : d.state.status = .running) (hsmall : d.taskCount args ≤ 32)
    (hclaimed : ∀ t < d.taskCount args, d.masks.claimedMask &&& taskMask t ≠ 0)
    (hsearches : Searches d ((Turns.after (step idle args) (fun _ => 0) s m).pcs 0)) (n : ℕ) :
    (Turns.after (step idle args) (fun _ => 0) s (m + n)).device.state.status = .running := by
  suffices hsame : (Turns.after (step idle args) (fun _ => 0) s (m + n)).device = d ∧
      Searches d ((Turns.after (step idle args) (fun _ => 0) s (m + n)).pcs 0) by
    rw [hsame.1, hrunning]
  induction n with
  | zero => exact ⟨hdevice, hsearches⟩
  | succ n ih =>
    rw [← Nat.add_assoc, Turns.after]
    generalize Turns.after (step idle args) (fun _ => 0) s (m + n) = t at ih ⊢
    obtain ⟨rfl, hpc⟩ := ih
    have hturn := turn_of_searches hrunning hsmall hclaimed hpc
    unfold step
    rw [Sys.turn_pcs_self]
    exact hturn

end LightRocm.Graph.Dynamic
