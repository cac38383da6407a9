import LightRocm.Graph.DynamicWords

/-!
# The invariant of the dynamic scheduler

`Fits` says what each worker knows at each point of its loop. Every turn keeps the
invariant as long as the phase word tells the generations apart.
-/

namespace LightRocm.Graph.Dynamic

/-- A claim is one of the current phase. -/
def Claim.Current (claim : Claim) (d : Device) : Prop :=
  claim.generation = phaseGeneration d.state.phase ∧ claim.program = d.program

/-- What worker `w` knows when it is at a point of its loop. -/
def Fits (args : ResidentArgs) (launch : State) (d : Device) (w : ℕ) : Pc → Prop
  | .begin => w = 0 → d.state = launch ∧ launch.status = .ready
  | .publish status => w = 0 ∧ status = .running ∧ d.state.status = .ready
  | .check | .loadPhase => d.state.status ≠ .ready
  | .loadClaimed snapshot | .loadClaimedHigh snapshot | .loadCompleted snapshot
  | .reloadPhase snapshot | .scan snapshot _ => d.state.status ≠ .ready ∧ Sees launch.base d snapshot
  | .loadCompletedHigh snapshot =>
    (d.state.status ≠ .ready ∧ Sees launch.base d snapshot) ∧ snapshot.completedMask < 2 ^ 32
  | .execute claim _ | .complete claim | .count claim =>
    d.state.status = .running ∧ claim.Current d ∧ claim.task < d.taskCount args
  | .advance claim => d.state.status = .running ∧ claim.Current d ∧ d.AllCounted args
  | .decide claim step =>
    (d.state.status = .running ∧ claim.Current d ∧ d.AllCounted args) ∧ step = d.state.step
  | .settle claim outcome =>
    (d.state.status = .running ∧ claim.Current d ∧ d.AllCounted args) ∧
      outcome = verdict args (args.program d.program) (phaseGeneration d.state.phase)
        d.state.step d
  | .returned status => status = d.state.status ∧ d.state.status.Ended

/-- The invariant of the scheduler. -/
structure Inv (args : ResidentArgs) (launch : State) (s : Sys Pc) : Prop where
  words : Words args launch.base s.device
  held : Held s.device.board s.pcs
  fits : ∀ w, Fits args launch s.device w (s.pcs w)
  /-- At most one worker ends the phase. -/
  unique : ∀ {w w'}, (s.pcs w).closing = true → (s.pcs w').closing = true → w = w'
  /-- A worker is about to end the phase once all tasks have been counted. -/
  closes : s.device.state.status = .running → s.device.AllCounted args →
    ∃ w, (s.pcs w).closing = true
  ready : s.device.state.status = .ready → ∀ t, s.device.board t = .unclaimed
  ended : s.device.state.status.Ended → s.device.AllCounted args

variable {args : ResidentArgs} {launch : State} {base w t : ℕ} {d d' : Device} {s : Sys Pc}
  {pc : Pc} {board : ℕ → Mark} {pcs : ℕ → Pc}

/-! ## What the workers know -/

/-- While tasks are left to count, what a worker knows stays true as long as the state stays
and completed tasks stay completed. -/
theorem Fits.frame (h : Fits args launch d w pc) (hopen : ¬d.AllCounted args)
    (hstate : d'.state = d.state) (hleft : d'.left = d.left)
    (hcompleted : ∀ {g t : ℕ}, t < kMaximumTasks → (d.phaseStates g).completed t = true →
      (d'.phaseStates g).completed t = true) : Fits args launch d' w pc := by
  have hprogram : d'.program = d.program := by rw [Device.program, hstate, Device.program]
  have hentered : d'.entered = d.entered := by
    rw [Device.entered, hleft, hprogram, Device.entered]
  have hcount : d'.taskCount args = d.taskCount args := by
    rw [Device.taskCount, hprogram, Device.taskCount]
  have hsees : ∀ {snapshot}, Sees launch.base d snapshot → Sees launch.base d' snapshot := fun hsees =>
    hsees.mono (by rw [hentered]; exact id) hcompleted
  cases pc with
  | begin | publish | check | loadPhase | returned =>
    simp only [Fits, hstate] at h ⊢
    exact h
  | loadClaimed | loadClaimedHigh | loadCompleted | reloadPhase | scan =>
    simp only [Fits, hstate] at h ⊢
    exact ⟨h.1, hsees h.2⟩
  | loadCompletedHigh =>
    simp only [Fits, hstate] at h ⊢
    exact ⟨⟨h.1.1, hsees h.1.2⟩, h.2⟩
  | execute | complete | count =>
    simp only [Fits, Claim.Current, hstate, hprogram, hcount] at h ⊢
    exact h
  | advance => exact absurd h.2.2 hopen
  | decide | settle => exact absurd h.1.2.2 hopen

/-- What a worker without a task knows stays true while the launch goes on. -/
theorem Fits.idle (h : Fits args launch d w pc) (hmark : pc.mark w = none)
    (hclosing : pc.closing = false) (hrunning : d.state.status = .running)
    (hstatus : d'.state.status ≠ .ready)
    (hsees : ∀ {snapshot}, Sees launch.base d snapshot → Sees launch.base d' snapshot) :
    Fits args launch d' w pc := by
  cases pc with
  | begin =>
    intro hw
    obtain ⟨hsame, hready⟩ := h hw
    rw [hsame, hready] at hrunning
    cases hrunning
  | publish =>
    have hready := h.2.2
    rw [hrunning] at hready
    cases hready
  | check | loadPhase => exact hstatus
  | loadClaimed | loadClaimedHigh | loadCompleted | reloadPhase | scan =>
    exact ⟨hstatus, hsees h.2⟩
  | loadCompletedHigh => exact ⟨⟨hstatus, hsees h.1.2⟩, h.2⟩
  | execute | complete | count => cases hmark
  | advance | decide | settle => cases hclosing
  | returned => exact absurd hrunning h.2.2

/-! ## The turns -/

/-- Nobody has a task once all tasks have been counted. -/
theorem Inv.mark_eq_none (h : Inv args launch s) (hall : s.device.AllCounted args) (w : ℕ) :
    (s.pcs w).mark w = none := by
  have hfit := h.fits w
  cases hmark : (s.pcs w).mark w with
  | none => rfl
  | some pair =>
    obtain ⟨t, mark⟩ := pair
    have hboard := h.held.held hmark
    have hholder := Pc.holder_of_mark hmark
    have hlt : t < s.device.taskCount args := by
      generalize s.pcs w = pc at hmark hfit
      cases pc with
      | execute | complete | count =>
        obtain ⟨rfl, -⟩ := Prod.mk.inj (Option.some.inj hmark)
        exact hfit.2.2
      | _ => cases hmark
    have hcounted := hall t hlt
    rw [hboard] at hcounted
    cases mark with
    | counted => cases hholder
    | _ => cases hcounted

/-- A turn that only changes what one worker knows. -/
theorem Inv.pass (h : Inv args launch s) (hold : (s.pcs w).mark w = none)
    (hnew : pc.mark w = none) (hclosing : (s.pcs w).closing = pc.closing)
    (hfits : Fits args launch s.device w pc) : Inv args launch (s.turn w s.device pc) where
  words := h.words
  held := h.held.pass hold hnew
  fits w' := by
    by_cases heq : w' = w
    · subst heq
      simpa [Sys.turn] using hfits
    · simpa [Sys.turn, heq] using h.fits w'
  unique := by
    have hsame : ∀ w', (Function.update s.pcs w pc w').closing = (s.pcs w').closing := by
      intro w'
      by_cases heq : w' = w
      · simp [heq, hclosing]
      · simp [heq]
    intro w₁ w₂ h₁ h₂
    exact h.unique ((hsame w₁).symm.trans h₁) ((hsame w₂).symm.trans h₂)
  closes hrunning hall := by
    obtain ⟨w', hw'⟩ := h.closes hrunning hall
    refine ⟨w', ?_⟩
    by_cases heq : w' = w
    · simpa [Sys.turn, heq, ← hclosing] using hw'
    · simpa [Sys.turn, heq] using hw'
  ready := h.ready
  ended := h.ended

/-- A worker that is about to end the phase has seen all tasks counted. -/
theorem Inv.allCounted (h : Inv args launch s) (hclosing : (s.pcs w).closing = true) :
    s.device.AllCounted args := by
  have hfit := h.fits w
  generalize s.pcs w = pc at hclosing hfit
  cases pc with
  | advance => exact hfit.2.2
  | decide | settle => exact hfit.1.2.2
  | _ => cases hclosing

/-- A turn by which a worker goes on with a task, while tasks are left to count. -/
theorem Inv.work (h : Inv args launch s) (hopen : ¬s.device.AllCounted args)
    (hrunning : s.device.state.status = .running) (hstate : d.state = s.device.state)
    (hleft : d.left = s.device.left)
    (hcompleted : ∀ {g t : ℕ}, t < kMaximumTasks → (s.device.phaseStates g).completed t = true →
      (d.phaseStates g).completed t = true)
    (hwords : Words args launch.base d) (hheld : Held d.board (Function.update s.pcs w pc))
    (hfits : Fits args launch d w pc) (hclosing : d.AllCounted args → pc.closing = true) :
    Inv args launch (s.turn w d pc) where
  words := hwords
  held := hheld
  fits w' := by
    by_cases heq : w' = w
    · subst heq
      simpa [Sys.turn] using hfits
    · simpa [Sys.turn, heq] using (h.fits w').frame hopen hstate hleft hcompleted
  unique := by
    have hself : ∀ {w'}, (Function.update s.pcs w pc w').closing = true → w' = w := by
      intro w' hw'
      by_contra hne
      rw [Function.update_of_ne hne] at hw'
      exact hopen (h.allCounted hw')
    intro w₁ w₂ h₁ h₂
    exact (hself h₁).trans (hself h₂).symm
  closes _ hall := ⟨w, by simpa [Sys.turn] using hclosing hall⟩
  ready hready := by
    have hready' : d.state.status = .ready := hready
    rw [hstate, hrunning] at hready'
    cases hready'
  ended hended := by
    have hended' : d.state.status.Ended := hended
    rw [hstate, hrunning] at hended'
    exact absurd rfl hended'.2

/-- A task with a mark that is not `counted` is left to count. -/
theorem not_allCounted (ht : t < d.taskCount args) (hmark : (d.board t).isCounted = false) :
    ¬d.AllCounted args := by
  intro hall
  rw [hall t ht] at hmark
  cases hmark

/-- The counter tells whether all tasks have been counted. -/
theorem Words.allCounted_iff (h : Words args base d) :
    d.AllCounted args ↔ d.masks.completedCount = d.taskCount args := by
  rw [h.counted]
  constructor
  · intro hall
    rw [Finset.filter_true_of_mem fun t ht => hall t (Finset.mem_range.mp ht), Finset.card_range]
  · intro hcard t ht
    have hfilter := Finset.filter_card_eq (hcard.trans (Finset.card_range _).symm)
    exact hfilter t (Finset.mem_range.mpr ht)

section Turns

variable {workload : Workload} {snapshot : Snapshot} {offset : ℕ} {c : Claim}

/-- The number of tasks of an accepted program fits its masks. -/
theorem Words.taskCount_le (h : Words args base d) {state : State}
    (hgraph : ValidGraph args state) : d.taskCount args ≤ kMaximumTasks :=
  (hgraph.program h.program_lt).taskCount_le

/-- A claim of a task that is claimed already changes nothing. -/
theorem orClaimed_of_claimed {masks : MaskState} (h : masks.claimed t = true) :
    masks.orClaimed t = masks := by
  have hword : masks.claimedWord t ||| taskMask t = masks.claimedWord t := by
    rw [taskMask_eq]
    apply Nat.eq_of_testBit_eq
    intro i
    rw [Nat.testBit_or, Nat.testBit_two_pow]
    by_cases hi : t % 32 = i
    · have hbit : (masks.claimedWord t).testBit i = true := hi ▸ h
      simp [hbit]
    · simp [hi]
  unfold MaskState.orClaimed
  unfold MaskState.claimedWord at hword
  split at hword <;> rename_i hlow
  · rw [if_pos hlow, hword]
  · rw [if_neg hlow, hword]

/-- The test of the claimed word before a task is taken. -/
theorem claimedWord_and_eq_zero {masks : MaskState} :
    masks.claimedWord t &&& taskMask t = 0 ↔ masks.claimed t = false := by
  rw [taskMask_eq, and_two_pow_eq_zero, MaskState.claimed]

/-- The words of a generation that stay the same. -/
theorem setMasks_self (g : ℕ) : d.setMasks g (d.phaseStates g) = d := by
  simp [Device.setMasks]

/-- **The claim.** Either the worker takes a task of the current phase that nobody has
claimed and whose dependencies are completed, or nothing changes. -/
theorem Inv.claim (h : Inv args launch s) (workload : Workload) {state : State}
    (hgraph : ValidGraph args state)
    (hpc : s.pcs w = .scan snapshot offset)
    (hoffset : offset < (snapshot.program args).taskCount)
    (hoffers : snapshot.Offers args (candidate w offset (snapshot.program args).taskCount)) :
    (∃ t, t < s.device.taskCount args ∧ s.device.board t = .unclaimed ∧
      (∀ i, args.Depends (args.program s.device.program) t i →
        (s.device.board i).isCompleted = true) ∧
      claim workload args w snapshot offset s.device =
        ((s.device.setMasks (phaseGeneration s.device.state.phase)
          (s.device.masks.orClaimed t)).take w t,
        .execute ⟨phaseGeneration s.device.state.phase, s.device.program, t⟩
          (workload.execute (args.task ((args.program s.device.program).taskOffset + t))
            s.device.state.step))) ∨
    claim workload args w snapshot offset s.device =
      (s.device, .scan snapshot (offset + 1)) := by
  have hfit := h.fits w
  rw [hpc] at hfit
  obtain ⟨k, p, hk, hp, hle, -, hgeneration, hprogram, hbits⟩ :=
    hfit.2.phase h.words hgraph.programs_le
  have hsnapshot : snapshot.program args = args.program p := by
    rw [Snapshot.program, hprogram]
  rw [hsnapshot] at hoffset hoffers
  have hvalid := hgraph.program hp
  have ht : candidate w offset (args.program p).taskCount < (args.program p).taskCount :=
    Nat.mod_lt _ hvalid.taskCount_pos
  unfold Dynamic.claim
  rw [hsnapshot, hgeneration]
  generalize candidate w offset (args.program p).taskCount = t at ht hoffers ⊢
  dsimp only
  by_cases hclaimed : (s.device.phaseStates (launch.base + k)).claimed t = true
  · right
    rw [if_neg (by rw [claimedWord_and_eq_zero, hclaimed]; exact nofun),
      orClaimed_of_claimed hclaimed, setMasks_self]
  · left
    -- The tasks of an earlier phase have all been claimed.
    obtain rfl : k = s.device.left.length := by
      by_contra hne
      rw [Device.entered_left (by omega)] at hk
      exact hclaimed (h.words.past hk ht)
    obtain rfl : s.device.program = p := by simpa [Device.entered] using hk
    rw [← h.words.generation] at hclaimed hbits ⊢
    have hboard : s.device.board t = .unclaimed := by
      by_contra hne
      exact hclaimed ((h.words.claimed ht).mpr hne)
    refine ⟨t, ht, hboard, fun i hi => ?_, ?_⟩
    · have hlt := hvalid.lt_of_depends ht hi
      have hbit : snapshot.completedMask.testBit i = true := by
        have hdepends := and_eq_left_iff.mp hoffers.2
        rw [hsnapshot] at hdepends
        exact hdepends i hi
      have hcompleted := hbits i (hlt.trans_le hvalid.taskCount_le) hbit
      rwa [← h.words.completed hlt]
    · rw [if_pos (claimedWord_and_eq_zero.mpr (Bool.eq_false_iff.mpr hclaimed)), hprogram]
      rfl

/-- The tasks of an accepted program start unclaimed, so not all have been counted. -/
theorem not_allCounted_of_unclaimed (hwords : Words args base d) (hgraph : ValidGraph args launch)
    (hboard : ∀ t, d.board t = .unclaimed) : ¬d.AllCounted args :=
  not_allCounted (hgraph.program hwords.program_lt).taskCount_pos (by rw [hboard]; rfl)

/-- The launch runs while tasks are left to count, once the status has been published. -/
theorem Inv.running (h : Inv args launch s) (hopen : ¬s.device.AllCounted args)
    (hready : s.device.state.status ≠ .ready) : s.device.state.status = .running := by
  by_contra hne
  exact hopen (h.ended ⟨hready, hne⟩)

/-- Until the status has been published, worker 0 validates and the others wait. -/
theorem Inv.begin_or_publish (h : Inv args launch s) (hready : s.device.state.status = .ready)
    (w : ℕ) : s.pcs w = .begin ∨ w = 0 ∧ ∃ status, s.pcs w = .publish status := by
  have hfit := h.fits w
  cases hpc : s.pcs w with
  | begin => exact .inl rfl
  | publish status => rw [hpc] at hfit; exact .inr ⟨hfit.1, status, rfl⟩
  | check | loadPhase => rw [hpc] at hfit; exact absurd hready hfit
  | loadClaimed | loadClaimedHigh | loadCompleted | reloadPhase | scan =>
    rw [hpc] at hfit
    exact absurd hready hfit.1
  | loadCompletedHigh => rw [hpc] at hfit; exact absurd hready hfit.1.1
  | execute | complete | count | advance =>
    rw [hpc] at hfit
    have hrunning := hfit.1
    rw [hready] at hrunning
    cases hrunning
  | decide | settle =>
    rw [hpc] at hfit
    have hrunning := hfit.1.1
    rw [hready] at hrunning
    cases hrunning
  | returned => rw [hpc] at hfit; exact absurd hready hfit.2.1

/-- Worker 0 publishes that the graph is valid. -/
theorem Inv.publish (h : Inv args launch s) (hgraph : ValidGraph args launch) {status : Status}
    (hpc : s.pcs w = .publish status) : Inv args launch (s.turn w (s.device.publish status)
      .check) := by
  have hfit := h.fits w
  rw [hpc] at hfit
  obtain ⟨rfl, rfl, hready⟩ := hfit
  have hboard := h.ready hready
  have hopen := not_allCounted_of_unclaimed h.words hgraph hboard
  have hothers : ∀ w', w' ≠ 0 → s.pcs w' = .begin := fun w' hne =>
    (h.begin_or_publish hready w').resolve_right fun hzero => hne hzero.1
  have hclosing : ∀ w', (Function.update s.pcs 0 .check w').closing = false := by
    intro w'
    by_cases heq : w' = 0
    · simp [heq, Pc.closing]
    · simp [heq, hothers w' heq, Pc.closing]
  refine ⟨h.words.congr rfl rfl rfl fun t => ⟨Iff.rfl, rfl, rfl⟩, h.held.pass ?_ rfl, fun w' => ?_,
    fun {w₁ w₂} h₁ _ => ?_, fun _ hall => absurd hall hopen, nofun, fun hended => absurd rfl hended.2⟩
  · rw [hpc]
    rfl
  · by_cases heq : w' = 0
    · subst heq
      simp [Sys.turn, Fits, Device.publish]
    · simp [Sys.turn, heq, hothers w' heq, Fits]
  · have hnot := hclosing w₁
    rw [show (Function.update s.pcs 0 .check w₁).closing = true from h₁] at hnot
    cases hnot

/-- A worker takes a task. -/
theorem Inv.take (h : Inv args launch s) (hgraph : ValidGraph args launch)
    (hready : s.device.state.status ≠ .ready) (hmark : (s.pcs w).mark w = none)
    (ht : t < s.device.taskCount args) (hboard : s.device.board t = .unclaimed) (a : Action) :
    Inv args launch (s.turn w ((s.device.setMasks (phaseGeneration s.device.state.phase)
        (s.device.masks.orClaimed t)).take w t)
      (.execute ⟨phaseGeneration s.device.state.phase, s.device.program, t⟩ a)) := by
  have hopen : ¬s.device.AllCounted args := not_allCounted ht (by rw [hboard]; rfl)
  have hrunning := h.running hopen hready
  have hle := h.words.taskCount_le hgraph
  refine h.work hopen hrunning rfl rfl (fun {g i} _ hi => ?_) (h.words.take hle ht hboard)
    (h.held.move (.inl ⟨hmark, by rw [hboard]; rfl⟩) rfl) ⟨hrunning, ⟨rfl, rfl⟩, ht⟩ fun hall => ?_
  · by_cases hg : g = phaseGeneration s.device.state.phase
    · subst hg
      simpa [Device.take, Device.setMasks, Device.masks] using hi
    · simpa [Device.take, Device.setMasks, hg] using hi
  · have hcounted := hall t ht
    simp [Device.take, Mark.isCounted] at hcounted

/-- The task of a worker makes one access. -/
theorem Inv.act (h : Inv args launch s) {a : Action} (hpc : s.pcs w = .execute c a)
    (memory : Memory) (a' : Action) :
    Inv args launch (s.turn w { s.device with memory := memory } (.execute c a')) := by
  have hfit := h.fits w
  rw [hpc] at hfit
  have hboard : s.device.board c.task = .executing w := h.held.held (by rw [hpc]; rfl)
  have hopen : ¬s.device.AllCounted args := not_allCounted hfit.2.2 (by rw [hboard]; rfl)
  refine h.work hopen hfit.1 rfl rfl (fun _ hi => hi)
    (h.words.congr rfl rfl rfl fun t => ⟨Iff.rfl, rfl, rfl⟩) ?_ hfit fun hall =>
      absurd hall hopen
  have hmove : Held (Function.update s.device.board c.task (.executing w))
      (Function.update s.pcs w (.execute c a')) :=
    h.held.move (.inr (by rw [hpc, hboard]; rfl)) rfl
  rwa [← hboard, Function.update_eq_self] at hmove

/-- A worker has executed its task. -/
theorem Inv.finish (h : Inv args launch s) {a : Action} (hpc : s.pcs w = .execute c a) :
    Inv args launch (s.turn w (s.device.finish w c.task) (.complete c)) := by
  have hfit := h.fits w
  rw [hpc] at hfit
  have hboard : s.device.board c.task = .executing w := h.held.held (by rw [hpc]; rfl)
  have hopen : ¬s.device.AllCounted args := not_allCounted hfit.2.2 (by rw [hboard]; rfl)
  refine h.work hopen hfit.1 rfl rfl (fun _ hi => hi)
    (h.words.congr rfl rfl rfl fun t => ?_)
    (h.held.move (.inr (by rw [hpc, hboard]; rfl)) rfl) hfit fun hall => ?_
  · by_cases heq : t = c.task
    · subst heq
      simp [Device.finish, hboard, Mark.isCompleted, Mark.isCounted]
    · simp [Device.finish, heq]
  · have hcounted := hall c.task hfit.2.2
    simp [Device.finish, Mark.isCounted] at hcounted

/-- A worker sets the bit of its task in the completed masks. -/
theorem Inv.complete (h : Inv args launch s) (hgraph : ValidGraph args launch)
    (hpc : s.pcs w = .complete c) :
    Inv args launch (s.turn w ((s.device.setMasks c.generation
      ((s.device.phaseStates c.generation).orCompleted c.task)).remark c.task (.completed w))
      (.count c)) := by
  have hfit := h.fits w
  rw [hpc] at hfit
  have hboard : s.device.board c.task = .executed w := h.held.held (by rw [hpc]; rfl)
  have hopen : ¬s.device.AllCounted args := not_allCounted hfit.2.2 (by rw [hboard]; rfl)
  have hle := h.words.taskCount_le hgraph
  have hgeneration := hfit.2.1.1
  rw [hgeneration]
  refine h.work hopen hfit.1 rfl rfl (fun {g i} hi hbit => ?_)
    (h.words.complete hle hfit.2.2 hboard)
    (h.held.move (.inr (by rw [hpc, hboard]; rfl)) rfl) hfit fun hall => ?_
  · by_cases hg : g = phaseGeneration s.device.state.phase
    · subst hg
      simp only [Device.remark, Device.setMasks, Function.update_self]
      rw [MaskState.completed_orCompleted (hfit.2.2.trans_le hle) hi, hbit, Bool.true_or]
    · simpa [Device.remark, Device.setMasks, hg] using hbit
  · have hcounted := hall c.task hfit.2.2
    simp [Device.remark, Mark.isCounted] at hcounted

/-- A worker counts its task; the last one goes on to end the phase. -/
theorem Inv.count (h : Inv args launch s) (hgraph : ValidGraph args launch)
    (hpc : s.pcs w = .count c) :
    Inv args launch (s.turn w ((s.device.setMasks c.generation
        { s.device.phaseStates c.generation with
          completedCount := ((s.device.phaseStates c.generation).completedCount + 1) % 2 ^ 32
        }).remark c.task (.counted w))
      (if ((s.device.phaseStates c.generation).completedCount + 1) % 2 ^ 32 =
          (args.program c.program).taskCount then .advance c else .check)) := by
  have hfit := h.fits w
  rw [hpc] at hfit
  have hboard : s.device.board c.task = .completed w := h.held.held (by rw [hpc]; rfl)
  have hopen : ¬s.device.AllCounted args := not_allCounted hfit.2.2 (by rw [hboard]; rfl)
  have hle := h.words.taskCount_le hgraph
  obtain ⟨hrunning, ⟨hgeneration, hprogram⟩, ht⟩ := hfit
  rw [hgeneration, hprogram]
  have hwords := h.words.count hle ht hboard
  have hall := hwords.allCounted_iff
  have hmasks : (((s.device.setMasks (phaseGeneration s.device.state.phase)
      { s.device.masks with completedCount := (s.device.masks.completedCount + 1) % 2 ^ 32
      }).remark c.task (.counted w)).masks).completedCount =
        (s.device.masks.completedCount + 1) % 2 ^ 32 := by
    simp [Device.masks, Device.remark, Device.setMasks]
  rw [hmasks] at hall
  refine h.work hopen hrunning rfl rfl (fun {g i} _ hbit => ?_) hwords
    (h.held.drop (by rw [hpc, hboard]; rfl) rfl ?_) ?_ fun hdone => ?_
  · by_cases hg : g = phaseGeneration s.device.state.phase
    · subst hg
      simp only [Device.remark, Device.setMasks, Function.update_self]
      exact hbit
    · simpa [Device.remark, Device.setMasks, hg] using hbit
  · split <;> rfl
  · split
    · rename_i hlast
      exact ⟨hrunning, ⟨hgeneration, hprogram⟩, hall.mpr hlast⟩
    · change s.device.state.status ≠ .ready
      rw [hrunning]
      exact (by rintro ⟨⟩)
  · have hlast : ((s.device.phaseStates (phaseGeneration s.device.state.phase)).completedCount +
        1) % 2 ^ 32 = (args.program s.device.program).taskCount := hall.mp hdone
    rw [if_pos hlast]
    rfl

/-- The other workers have neither a task nor the phase to end. -/
theorem Inv.others (h : Inv args launch s) (hclosing : (s.pcs w).closing = true) {w' : ℕ}
    (hne : w' ≠ w) : (s.pcs w').mark w' = none ∧ (s.pcs w').closing = false := by
  refine ⟨h.mark_eq_none (h.allCounted hclosing) w', ?_⟩
  by_contra hother
  exact hne (h.unique (Bool.eq_true_of_not_eq_false hother) hclosing)

/-- A worker that ends the phase has no task. -/
theorem Pc.mark_of_closing (h : pc.closing = true) : pc.mark w = none := by
  cases pc with
  | advance | decide | settle => rfl
  | _ => cases h

/-- The last worker advances the step. -/
theorem Inv.advance (h : Inv args launch s) (hpc : s.pcs w = .advance c) :
    Inv args launch (s.turn w (s.device.advance (args.program c.program))
      (.decide c (nextStep (args.program c.program) s.device.state))) := by
  have hfit := h.fits w
  rw [hpc] at hfit
  obtain ⟨hrunning, hcurrent, hall⟩ := hfit
  have hclosing : (s.pcs w).closing = true := by rw [hpc]; rfl
  refine ⟨h.words.congr rfl rfl rfl fun t => ⟨Iff.rfl, rfl, rfl⟩,
    h.held.pass (Pc.mark_of_closing hclosing) rfl, fun w' => ?_, fun {w₁ w₂} h₁ h₂ => ?_,
    fun _ _ => ⟨w, by simp [Sys.turn, Pc.closing]⟩, fun hready => ?_, fun _ => hall⟩
  · by_cases heq : w' = w
    · subst heq
      simp only [Sys.turn, Function.update_self]
      exact ⟨⟨hrunning, hcurrent, hall⟩, rfl⟩
    · simp only [Sys.turn, Function.update_of_ne heq]
      obtain ⟨hmark, hnot⟩ := h.others hclosing heq
      refine (h.fits w').idle hmark hnot hrunning ?_ fun hsees => hsees
      change s.device.state.status ≠ .ready
      rw [hrunning]
      exact nofun
  · have hself : ∀ {w'}, (Function.update s.pcs w (.decide c
        (nextStep (args.program c.program) s.device.state)) w').closing = true → w' = w := by
      intro w' hw'
      by_contra hne
      rw [Function.update_of_ne hne, (h.others hclosing hne).2] at hw'
      cases hw'
    exact (hself h₁).trans (hself h₂).symm
  · have hready' : s.device.state.status = .ready := hready
    rw [hrunning] at hready'
    cases hready'

/-- The last worker publishes how the run goes on. -/
theorem Inv.settle (h : Inv args launch s) (hgraph : ValidGraph args launch) {outcome : Verdict}
    (hpc : s.pcs w = .settle c outcome)
    (hroom : launch.base + (s.device.settle w c.generation outcome).left.length <
      kMaximumPhaseStates) :
    Inv args launch (s.turn w (s.device.settle w c.generation outcome) .check) := by
  have hfit := h.fits w
  rw [hpc] at hfit
  obtain ⟨⟨hrunning, ⟨hgeneration, -⟩, hall⟩, houtcome⟩ := hfit
  have hclosing : (s.pcs w).closing = true := by rw [hpc]; rfl
  have hfree : ∀ w', (s.pcs w').mark w' = none := h.mark_eq_none hall
  have hopen : ∀ w', (Function.update s.pcs w .check w').closing = false := by
    intro w'
    by_cases heq : w' = w
    · simp [heq, Pc.closing]
    · rw [Function.update_of_ne heq]
      exact (h.others hclosing heq).2
  have hunique : ∀ {w₁ w₂}, (Function.update s.pcs w .check w₁).closing = true →
      (Function.update s.pcs w .check w₂).closing = true → w₁ = w₂ := by
    intro w₁ w₂ h₁ _
    rw [hopen w₁] at h₁
    cases h₁
  have hfits : ∀ d : Device, d.state.status ≠ .ready →
      (∀ {snapshot}, Sees launch.base s.device snapshot → Sees launch.base d snapshot) →
      ∀ w', Fits args launch d w' (Function.update s.pcs w .check w') := by
    intro d hstatus hsees w'
    by_cases heq : w' = w
    · subst heq
      simpa [Fits] using hstatus
    · rw [Function.update_of_ne heq]
      exact (h.fits w').idle (hfree w') (h.others hclosing heq).2 hrunning hstatus hsees
  have hstop : ∀ (status : Status) (errorCode : ℕ), status.Ended →
      Inv args launch (s.turn w (s.device.stop w status errorCode) .check) := by
    intro status errorCode hended
    exact ⟨h.words.congr rfl rfl rfl fun t => ⟨Iff.rfl, rfl, rfl⟩, h.held.pass (hfree w) rfl,
      hfits _ hended.1 fun hsees => hsees, hunique, fun hrun => absurd hrun hended.2,
      fun hready => absurd hready hended.1, fun _ => hall⟩
  cases outcome with
  | complete => exact hstop .complete _ ⟨(by rintro ⟨⟩), (by rintro ⟨⟩)⟩
  | maxSteps => exact hstop .maxSteps _ ⟨(by rintro ⟨⟩), (by rintro ⟨⟩)⟩
  | exhausted => exact hstop .invalidProgram _ ⟨(by rintro ⟨⟩), (by rintro ⟨⟩)⟩
  | next p =>
    obtain ⟨hlt, hp⟩ := verdict_eq_next houtcome.symm
    have hp' : p < args.programs.length := by
      rw [hp]
      exact successor_lt (hgraph.program h.words.program_lt)
    rw [h.words.generation] at hlt
    have hmax : launch.base + s.device.left.length + 1 < kMaximumPhaseStates := by
      simpa [Device.settle, Device.enter, Nat.add_assoc] using hroom
    have hwords := h.words.enter (w := w) hgraph.programs_le hall hlt hmax hp'
    have hboard : ∀ t, (s.device.enter w
        (makePhase (phaseGeneration s.device.state.phase + 1) p)).board t = .unclaimed :=
      fun _ => rfl
    rw [hgeneration]
    refine ⟨hwords, ?_, hfits _ ?_ fun hsees => ?_, hunique,
      fun _ hdone => absurd hdone (not_allCounted_of_unclaimed hwords hgraph hboard),
      fun _ => hboard, fun hended => absurd hrunning hended.2⟩
    · exact Held.clear fun w' => by
        by_cases heq : w' = w
        · simp [Sys.turn, heq, Pc.mark]
        · simpa [Sys.turn, heq] using hfree w'
    · change s.device.state.status ≠ .ready
      rw [hrunning]
      exact (by rintro ⟨⟩)
    · refine hsees.mono (fun {k q} hk => ?_) fun _ hi => hi
      have hlt' : k < s.device.entered.length := (List.getElem?_eq_some_iff.mp hk).1
      change (s.device.entered ++ [_])[k]? = some q
      rwa [List.getElem?_append_left hlt']

/-- Every turn keeps the invariant, as long as the phase word tells the generations apart. -/
theorem Inv.step (h : Inv args launch s) (hvalid : validatePrograms workload args launch = true)
    (hroom : launch.base + (step workload args w s).device.left.length < kMaximumPhaseStates) :
    Inv args launch (step workload args w s) := by
  have hgraph := validGraph_of_validate hvalid
  have hprograms := hgraph.programs_le
  have hfit := h.fits w
  unfold Dynamic.step at hroom ⊢
  have hpass : ∀ {pc : Pc}, (s.pcs w).mark w = none → pc.mark w = none →
      (s.pcs w).closing = pc.closing → Fits args launch s.device w pc →
      Inv args launch (s.turn w s.device pc) := fun h₁ h₂ h₃ h₄ => h.pass h₁ h₂ h₃ h₄
  cases hpc : s.pcs w with
  | begin =>
    rw [hpc] at hfit hpass
    simp only [turn]
    split
    · rename_i hzero
      obtain ⟨hstate, hready⟩ := hfit hzero
      refine hpass rfl rfl rfl ⟨hzero, ?_, hstate ▸ hready⟩
      rw [hstate, if_pos hvalid]
    · rename_i hzero
      refine hpass rfl ?_ ?_ ?_
      · split <;> rfl
      · split <;> rfl
      · split
        · exact fun hw => absurd hw hzero
        · assumption
  | publish status => exact h.publish hgraph hpc
  | check =>
    rw [hpc] at hfit hpass
    simp only [turn]
    refine hpass rfl ?_ ?_ ?_
    · split <;> rfl
    · split <;> rfl
    · split
      · exact hfit
      · exact ⟨rfl, hfit, by assumption⟩
  | loadPhase =>
    rw [hpc] at hfit hpass
    exact hpass rfl rfl rfl ⟨hfit, h.words.sees⟩
  | loadClaimed snapshot =>
    rw [hpc] at hfit hpass
    simp only [turn]
    refine hpass rfl ?_ ?_ ?_
    · split <;> rfl
    · split <;> rfl
    · split <;> exact ⟨hfit.1, hfit.2.congr rfl rfl⟩
  | loadClaimedHigh snapshot =>
    rw [hpc] at hfit hpass
    exact hpass rfl rfl rfl ⟨hfit.1, hfit.2.congr rfl rfl⟩
  | loadCompleted snapshot =>
    rw [hpc] at hfit hpass
    simp only [turn]
    have hsees := hfit.2.low h.words hprograms
    refine hpass rfl ?_ ?_ ?_
    · split <;> rfl
    · split <;> rfl
    · split
      · exact ⟨⟨hfit.1, hsees⟩, h.words.words _⟩
      · exact ⟨hfit.1, hsees⟩
  | loadCompletedHigh snapshot =>
    rw [hpc] at hfit hpass
    exact hpass rfl rfl rfl ⟨hfit.1.1, hfit.1.2.high h.words hprograms hfit.2⟩
  | reloadPhase snapshot =>
    rw [hpc] at hfit hpass
    simp only [turn]
    refine hpass rfl ?_ ?_ ?_
    · split <;> rfl
    · split <;> rfl
    · split
      · exact hfit
      · exact hfit.1
  | scan snapshot offset =>
    have hready : s.device.state.status ≠ .ready := by
      rw [hpc] at hfit
      exact hfit.1
    simp only [turn]
    split
    · rename_i hoffset
      split
      · rename_i hoffers
        rcases h.claim workload hgraph hpc hoffset hoffers with
          ⟨t, ht, hboard, -, hclaim⟩ | hclaim
        · rw [hclaim]
          exact h.take hgraph hready (by rw [hpc]; rfl) ht hboard _
        · rw [hclaim]
          rw [hpc] at hfit hpass
          exact hpass rfl rfl rfl hfit
      · rw [hpc] at hfit hpass
        exact hpass rfl rfl rfl hfit
    · rw [hpc] at hfit hpass
      exact hpass rfl rfl rfl hfit.1
  | execute c a =>
    simp only [turn]
    split
    · exact h.finish hpc
    · exact h.act hpc _ _
  | complete c => exact h.complete hgraph hpc
  | count c => exact h.count hgraph hpc
  | advance c => exact h.advance hpc
  | decide c step =>
    rw [hpc] at hfit hpass
    obtain ⟨⟨hrunning, ⟨hgeneration, hprogram⟩, hall⟩, hstep⟩ := hfit
    refine hpass rfl rfl rfl ⟨⟨hrunning, ⟨hgeneration, hprogram⟩, hall⟩, ?_⟩
    rw [hgeneration, hprogram, hstep]
  | settle c outcome =>
    rw [hpc] at hroom
    exact h.settle hgraph hpc hroom
  | returned status =>
    rw [hpc] at hfit hpass
    exact hpass rfl rfl rfl hfit

end Turns

end LightRocm.Graph.Dynamic
