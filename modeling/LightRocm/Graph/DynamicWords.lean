import LightRocm.Graph.Dynamic

/-!
# The words of the dynamic scheduler

`Words` ties the mask words of all generations to the board, `Held` ties the board
to the workers, and `Sees` says what a snapshot of the words is good for. The
generations of a launch are numbered from `base` on.
-/

namespace LightRocm.Graph

/-- The bit of the task in the completed masks has been set. -/
def Mark.isCompleted : Mark → Bool
  | completed _ | counted _ => true
  | unclaimed | executing _ | executed _ => false

/-- The task has been counted. -/
def Mark.isCounted : Mark → Bool
  | counted _ => true
  | unclaimed | executing _ | executed _ | completed _ => false

/-- The worker that still has something to do for the task. -/
def Mark.holder : Mark → Option ℕ
  | executing w | executed w | completed w => some w
  | unclaimed | counted _ => none

/-- A completed task has been executed. -/
theorem Mark.finisher_of_isCompleted {mark : Mark} (h : mark.isCompleted = true) :
    mark.finisher ≠ [] := by
  cases mark with
  | completed w | counted w => exact List.cons_ne_nil _ _
  | _ => cases h

/-- All tasks of the current phase have been counted. -/
def Device.AllCounted (args : ResidentArgs) (d : Device) : Prop :=
  ∀ t, t < d.taskCount args → (d.board t).isCounted = true

namespace Dynamic

/-- The task that a worker has, and its mark. -/
def Pc.mark (w : ℕ) : Pc → Option (ℕ × Mark)
  | .execute claim _ => some (claim.task, .executing w)
  | .complete claim => some (claim.task, .executed w)
  | .count claim => some (claim.task, .completed w)
  | _ => none

/-- The worker is about to end the phase. -/
def Pc.closing : Pc → Bool
  | .advance _ | .decide _ _ | .settle _ _ => true
  | _ => false

/-- Every task on which work is going on is with the worker that the board shows. -/
structure Held (board : ℕ → Mark) (pcs : ℕ → Pc) : Prop where
  held : ∀ {w t : ℕ} {mark : Mark}, (pcs w).mark w = some (t, mark) → board t = mark
  holder : ∀ {w t : ℕ}, (board t).holder = some w → (pcs w).mark w = some (t, board t)

/-- The mask words agree with the board. -/
structure Words (args : ResidentArgs) (base : ℕ) (d : Device) : Prop where
  room : base + d.left.length < args.phaseStateCount
  lt_max : base + d.left.length < kMaximumPhaseStates
  generation : phaseGeneration d.state.phase = base + d.left.length
  programs : ∀ {p}, p ∈ d.entered → p < args.programs.length
  /-- No later generation has been used. -/
  fresh : ∀ {g}, base + d.left.length < g → d.phaseStates g = {}
  /-- The tasks of every earlier generation have all been claimed. -/
  past : ∀ {k p t}, d.left[k]? = some p → t < (args.program p).taskCount →
    (d.phaseStates (base + k)).claimed t = true
  words : ∀ g, (d.phaseStates g).completedMask < 2 ^ 32
  claimed : ∀ {t}, t < d.taskCount args → (d.masks.claimed t = true ↔ d.board t ≠ .unclaimed)
  completed : ∀ {t}, t < d.taskCount args → d.masks.completed t = (d.board t).isCompleted
  counted : d.masks.completedCount =
    ((Finset.range (d.taskCount args)).filter fun t => (d.board t).isCounted = true).card

/-- A snapshot is one of a phase that has been entered, and shows completed tasks only. -/
def Sees (base : ℕ) (d : Device) (snapshot : Snapshot) : Prop :=
  ∃ k p, d.entered[k]? = some p ∧ snapshot.phase = makePhase (base + k) p ∧
    ∀ t, t < kMaximumTasks → snapshot.completedMask.testBit t = true →
      (d.phaseStates (base + k)).completed t = true

variable {args : ResidentArgs} {base w t : ℕ} {d d' : Device} {pc : Pc}
  {board : ℕ → Mark} {pcs : ℕ → Pc}

/-! ## The board and the workers -/

/-- A worker marks its task with its own index. -/
theorem Pc.holder_of_mark {mark : Mark} (h : pc.mark w = some (t, mark)) :
    mark.holder = some w := by
  cases pc with
  | execute | complete | count =>
    obtain ⟨-, rfl⟩ := Prod.mk.inj (Option.some.inj h)
    rfl
  | _ => cases h

/-- A worker without a task goes on without one. -/
theorem Held.pass (h : Held board pcs) (hold : (pcs w).mark w = none) (hnew : pc.mark w = none) :
    Held board (Function.update pcs w pc) := by
  constructor
  · intro w' t mark hmark
    by_cases heq : w' = w
    · subst heq
      simp [hnew] at hmark
    · exact h.held (by simpa [heq] using hmark)
  · intro w' t hholder
    have hmark := h.holder hholder
    by_cases heq : w' = w
    · subst heq
      rw [hold] at hmark
      cases hmark
    · simpa [heq] using hmark

/-- A worker takes a task that nobody has, or goes on with its own. -/
theorem Held.move (h : Held board pcs) {mark : Mark}
    (hold : (pcs w).mark w = none ∧ (board t).holder = none ∨ (pcs w).mark w = some (t, board t))
    (hnew : pc.mark w = some (t, mark)) :
    Held (Function.update board t mark) (Function.update pcs w pc) := by
  have hholder : mark.holder = some w := Pc.holder_of_mark hnew
  have hother : ∀ {w' : ℕ} {mark' : Mark}, (pcs w').mark w' = some (t, mark') → w' = w := by
    intro w' mark' hmark'
    have hboard : (board t).holder = some w' := by rw [h.held hmark', Pc.holder_of_mark hmark']
    rcases hold with ⟨-, hnone⟩ | hown
    · rw [hnone] at hboard
      cases hboard
    · rw [Pc.holder_of_mark hown] at hboard
      exact (Option.some.inj hboard).symm
  constructor
  · intro w' t' mark' hmark'
    by_cases heq : w' = w
    · subst heq
      rw [Function.update_self, hnew] at hmark'
      obtain ⟨rfl, rfl⟩ := Prod.mk.inj (Option.some.inj hmark')
      exact Function.update_self ..
    · rw [Function.update_of_ne heq] at hmark'
      have hne : t' ≠ t := by
        rintro rfl
        exact heq (hother hmark')
      rw [Function.update_of_ne hne]
      exact h.held hmark'
  · intro w' t' hholder'
    by_cases heq : t' = t
    · subst heq
      rw [Function.update_self] at hholder' ⊢
      obtain rfl : w = w' := Option.some.inj (hholder.symm.trans hholder')
      rw [Function.update_self]
      exact hnew
    · rw [Function.update_of_ne heq] at hholder' ⊢
      have hmark' := h.holder hholder'
      have hne : w' ≠ w := by
        rintro rfl
        rcases hold with ⟨hnone, -⟩ | hown
        · rw [hnone] at hmark'
          cases hmark'
        · rw [hown] at hmark'
          exact heq (Prod.mk.inj (Option.some.inj hmark')).1.symm
      rwa [Function.update_of_ne hne]

/-- A worker has done all it has to do for its task. -/
theorem Held.drop (h : Held board pcs) (hold : (pcs w).mark w = some (t, board t))
    {mark : Mark} (hmark : mark.holder = none) (hnew : pc.mark w = none) :
    Held (Function.update board t mark) (Function.update pcs w pc) := by
  constructor
  · intro w' t' mark' hmark'
    by_cases heq : w' = w
    · subst heq
      rw [Function.update_self, hnew] at hmark'
      cases hmark'
    · rw [Function.update_of_ne heq] at hmark'
      have hne : t' ≠ t := by
        rintro rfl
        have hboard : (board t').holder = some w' := by
          rw [h.held hmark', Pc.holder_of_mark hmark']
        rw [Pc.holder_of_mark hold] at hboard
        exact heq (Option.some.inj hboard).symm
      rw [Function.update_of_ne hne]
      exact h.held hmark'
  · intro w' t' hholder'
    by_cases heq : t' = t
    · subst heq
      rw [Function.update_self, hmark] at hholder'
      cases hholder'
    · rw [Function.update_of_ne heq] at hholder' ⊢
      have hmark' := h.holder hholder'
      have hne : w' ≠ w := by
        rintro rfl
        rw [hold] at hmark'
        exact heq (Prod.mk.inj (Option.some.inj hmark')).1.symm
      rwa [Function.update_of_ne hne]

/-- A new phase begins when nobody has a task. -/
theorem Held.clear (hfree : ∀ w, (pcs w).mark w = none) : Held (fun _ => .unclaimed) pcs := by
  constructor
  · intro w t mark hmark
    rw [hfree w] at hmark
    cases hmark
  · intro w t hholder
    cases hholder

/-! ## The words of the generations -/

/-- The program of the current phase is one of the table. -/
theorem Words.program_lt (h : Words args base d) : d.program < args.programs.length :=
  h.programs (by simp [Device.entered])

/-- Changes that leave the words and the board alone. -/
theorem Words.congr (h : Words args base d) (hphase : d'.state.phase = d.state.phase)
    (hleft : d'.left = d.left) (hmasks : d'.phaseStates = d.phaseStates)
    (hboard : ∀ t, ((d'.board t) = .unclaimed ↔ d.board t = .unclaimed) ∧
      (d'.board t).isCompleted = (d.board t).isCompleted ∧
      (d'.board t).isCounted = (d.board t).isCounted) : Words args base d' := by
  have hprogram : d'.program = d.program := by rw [Device.program, hphase, Device.program]
  have hcount : d'.taskCount args = d.taskCount args := by
    rw [Device.taskCount, hprogram, Device.taskCount]
  have hcurrent : d'.masks = d.masks := by rw [Device.masks, hmasks, hphase, Device.masks]
  refine ⟨?_, ?_, ?_, ?_, ?_, ?_, ?_, ?_, ?_, ?_⟩
  · rw [hleft]
    exact h.room
  · rw [hleft]
    exact h.lt_max
  · rw [hphase, hleft]
    exact h.generation
  · rw [Device.entered, hleft, hprogram]
    exact h.programs
  · rw [hleft, hmasks]
    exact h.fresh
  · rw [hleft, hmasks]
    exact h.past
  · rw [hmasks]
    exact h.words
  · intro t ht
    rw [hcurrent, ne_eq, (hboard t).1]
    exact h.claimed (hcount ▸ ht)
  · intro t ht
    rw [hcurrent, (hboard t).2.1]
    exact h.completed (hcount ▸ ht)
  · rw [hcurrent, hcount, h.counted]
    simp only [(hboard _).2.2]

variable {masks : MaskState}

/-- New words for the current generation that agree with the new board. -/
theorem Words.setMasks (h : Words args base d) (hphase : d'.state.phase = d.state.phase)
    (hleft : d'.left = d.left)
    (hstates : d'.phaseStates = Function.update d.phaseStates (phaseGeneration d.state.phase) masks)
    (hword : masks.completedMask < 2 ^ 32)
    (hclaimed : ∀ {t}, t < d.taskCount args → (masks.claimed t = true ↔ d'.board t ≠ .unclaimed))
    (hcompleted : ∀ {t}, t < d.taskCount args → masks.completed t = (d'.board t).isCompleted)
    (hcounted : masks.completedCount =
      ((Finset.range (d.taskCount args)).filter fun t => (d'.board t).isCounted = true).card) :
    Words args base d' := by
  have hprogram : d'.program = d.program := by rw [Device.program, hphase, Device.program]
  have hcount : d'.taskCount args = d.taskCount args := by
    rw [Device.taskCount, hprogram, Device.taskCount]
  have hcurrent : d'.masks = masks := by
    rw [Device.masks, hstates, hphase, Function.update_self]
  have hother : ∀ {g}, g ≠ base + d.left.length → d'.phaseStates g = d.phaseStates g := by
    intro g hg
    rw [hstates, h.generation, Function.update_of_ne hg]
  refine ⟨?_, ?_, ?_, ?_, ?_, ?_, ?_, ?_, ?_, ?_⟩
  · rw [hleft]
    exact h.room
  · rw [hleft]
    exact h.lt_max
  · rw [hphase, hleft]
    exact h.generation
  · rw [Device.entered, hleft, hprogram]
    exact h.programs
  · intro g hg
    rw [hleft] at hg
    rw [hother hg.ne']
    exact h.fresh hg
  · intro k p t hk ht
    rw [hleft] at hk
    have hlt : k < d.left.length := (List.getElem?_eq_some_iff.mp hk).1
    rw [hother (by omega)]
    exact h.past hk ht
  · intro g
    by_cases hg : g = base + d.left.length
    · rw [hstates, hg, ← h.generation, Function.update_self]
      exact hword
    · rw [hother hg]
      exact h.words g
  · rw [hcurrent, hcount]
    exact hclaimed
  · rw [hcurrent, hcount]
    exact hcompleted
  · rw [hcurrent, hcount]
    exact hcounted

/-- Number of counted tasks after one task has got a mark. -/
theorem card_counted_update {n : ℕ} (mark : Mark) (ht : t < n)
    (hold : (board t).isCounted = false) :
    ((Finset.range n).filter fun i => (Function.update board t mark i).isCounted = true).card =
      ((Finset.range n).filter fun i => (board i).isCounted = true).card +
        if mark.isCounted then 1 else 0 := by
  cases hmark : mark.isCounted with
  | false =>
    have hsame : ∀ i, (Function.update board t mark i).isCounted = (board i).isCounted := by
      intro i
      by_cases heq : i = t
      · simp [heq, hmark, hold]
      · simp [heq]
    simp [hsame]
  | true =>
    have hinsert : ((Finset.range n).filter fun i =>
        (Function.update board t mark i).isCounted = true) =
        insert t ((Finset.range n).filter fun i => (board i).isCounted = true) := by
      ext i
      by_cases heq : i = t
      · simp [heq, hmark, ht]
      · simp [heq]
    rw [hinsert, Finset.card_insert_of_notMem (by simp [hold])]
    rfl

/-- A worker claims a task: its bit is set, and the board shows the worker. -/
theorem Words.take (h : Words args base d) (hle : d.taskCount args ≤ kMaximumTasks)
    (ht : t < d.taskCount args) (hboard : d.board t = .unclaimed) :
    Words args base ((d.setMasks (phaseGeneration d.state.phase)
      (d.masks.orClaimed t)).take w t) := by
  obtain ⟨hlow, -, hcount⟩ := d.masks.orClaimed_eq t
  refine h.setMasks rfl rfl rfl ?_ (fun {i} hi => ?_) (fun {i} hi => ?_) ?_
  · rw [hlow]
    exact h.words _
  · rw [MaskState.claimed_orClaimed (ht.trans_le hle) (hi.trans_le hle)]
    by_cases heq : i = t
    · simp [heq, Device.take]
    · simpa [heq, Device.take, Device.setMasks] using h.claimed hi
  · rw [MaskState.completed_orClaimed, h.completed hi]
    by_cases heq : i = t
    · simp [heq, Device.take, hboard, Mark.isCompleted]
    · simp [heq, Device.take, Device.setMasks]
  · have huncounted : (d.board t).isCounted = false := by rw [hboard]; rfl
    rw [hcount, h.counted]
    exact (card_counted_update (.executing w) ht huncounted).symm

/-- A worker sets the bit of the task that it has executed. -/
theorem Words.complete (h : Words args base d) (hle : d.taskCount args ≤ kMaximumTasks)
    (ht : t < d.taskCount args) (hboard : d.board t = .executed w) :
    Words args base ((d.setMasks (phaseGeneration d.state.phase)
      (d.masks.orCompleted t)).remark t (.completed w)) := by
  obtain ⟨-, -, hcount⟩ := d.masks.orCompleted_eq t
  refine h.setMasks rfl rfl rfl ?_ (fun {i} hi => ?_) (fun {i} hi => ?_) ?_
  · exact MaskState.completedMask_orCompleted_lt (h.words _)
  · rw [MaskState.claimed_orCompleted, h.claimed hi]
    by_cases heq : i = t
    · simp [heq, Device.remark, hboard]
    · simp [heq, Device.remark, Device.setMasks]
  · rw [MaskState.completed_orCompleted (ht.trans_le hle) (hi.trans_le hle), h.completed hi]
    by_cases heq : i = t
    · simp [heq, Device.remark, Mark.isCompleted]
    · simp [heq, Device.remark, Device.setMasks]
  · have huncounted : (d.board t).isCounted = false := by rw [hboard]; rfl
    rw [hcount, h.counted]
    exact (card_counted_update (.completed w) ht huncounted).symm

/-- The counter after a task has been counted. -/
theorem Words.count_lt (h : Words args base d) (hle : d.taskCount args ≤ kMaximumTasks)
    (ht : t < d.taskCount args) (hboard : (d.board t).isCounted = false) :
    d.masks.completedCount < d.taskCount args ∧
      (d.masks.completedCount + 1) % 2 ^ 32 = d.masks.completedCount + 1 := by
  have hlt : d.masks.completedCount < d.taskCount args := by
    rw [h.counted]
    calc ((Finset.range (d.taskCount args)).filter fun i => (d.board i).isCounted = true).card
        < (Finset.range (d.taskCount args)).card := by
          apply Finset.card_lt_card
          refine Finset.filter_ssubset.mpr ⟨t, Finset.mem_range.mpr ht, ?_⟩
          rw [hboard]
          exact Bool.false_ne_true
      _ = d.taskCount args := Finset.card_range _
  refine ⟨hlt, Nat.mod_eq_of_lt ?_⟩
  have hmax : d.taskCount args ≤ 64 := hle
  omega

/-- A worker counts the task that it has completed. -/
theorem Words.count (h : Words args base d) (hle : d.taskCount args ≤ kMaximumTasks)
    (ht : t < d.taskCount args) (hboard : d.board t = .completed w) :
    Words args base ((d.setMasks (phaseGeneration d.state.phase)
      { d.masks with completedCount := (d.masks.completedCount + 1) % 2 ^ 32 }).remark t
        (.counted w)) := by
  have huncounted : (d.board t).isCounted = false := by rw [hboard]; rfl
  refine h.setMasks rfl rfl rfl (h.words _) (fun {i} hi => ?_) (fun {i} hi => ?_) ?_
  · refine (h.claimed hi).trans ?_
    by_cases heq : i = t
    · simp [heq, Device.remark, hboard]
    · simp [heq, Device.remark, Device.setMasks]
  · refine (h.completed hi).trans ?_
    by_cases heq : i = t
    · simp [heq, Device.remark, hboard, Mark.isCompleted]
    · simp [heq, Device.remark, Device.setMasks]
  · rw [(h.count_lt hle ht huncounted).2, h.counted]
    exact (card_counted_update (.counted w) ht huncounted).symm

/-- A new phase begins with the words of the next generation, which nobody has used. -/
theorem Words.enter (h : Words args base d) (hprograms : args.programs.length ≤ kMaximumPrograms)
    (hall : d.AllCounted args) (hroom : base + d.left.length + 1 < args.phaseStateCount)
    (hmax : base + d.left.length + 1 < kMaximumPhaseStates) {p : ℕ}
    (hp : p < args.programs.length) :
    Words args base (d.enter w (makePhase (phaseGeneration d.state.phase + 1) p)) := by
  have hgeneration : phaseGeneration (makePhase (phaseGeneration d.state.phase + 1) p) =
      base + d.left.length + 1 := by
    rw [phaseGeneration_makePhase (hp.trans_le hprograms), h.generation, Nat.mod_eq_of_lt hmax]
  have hprogram : (d.enter w (makePhase (phaseGeneration d.state.phase + 1) p)).program = p :=
    phaseProgram_makePhase (hp.trans_le hprograms)
  have hlength : (d.enter w (makePhase (phaseGeneration d.state.phase + 1) p)).left.length =
      d.left.length + 1 := by simp [Device.enter]
  have hmasks : (d.enter w (makePhase (phaseGeneration d.state.phase + 1) p)).masks = {} := by
    change d.phaseStates (phaseGeneration (makePhase (phaseGeneration d.state.phase + 1) p)) = {}
    rw [hgeneration]
    exact h.fresh (by omega)
  have hzero : ∀ i, (0 : ℕ).testBit i = false := Nat.zero_testBit
  refine ⟨?_, ?_, ?_, ?_, ?_, ?_, h.words, ?_, ?_, ?_⟩
  · rw [hlength]
    omega
  · rw [hlength]
    omega
  · rw [hlength]
    exact hgeneration
  · intro q hq
    rw [Device.entered, hprogram] at hq
    rcases List.mem_append.mp hq with hq | hq
    · exact h.programs hq
    · rwa [List.mem_singleton.mp hq]
  · intro g hg
    rw [hlength] at hg
    exact h.fresh (g := g) (by omega)
  · intro k q t hk ht
    have hk' : (d.left ++ [d.program])[k]? = some q := hk
    rcases lt_trichotomy k d.left.length with hlt | rfl | hgt
    · rw [List.getElem?_append_left hlt] at hk'
      exact h.past hk' ht
    · obtain rfl : d.program = q := by simpa using hk'
      have hboard : d.board t ≠ .unclaimed := by
        intro hun
        have hcounted := hall t ht
        rw [hun] at hcounted
        cases hcounted
      rw [← h.generation]
      exact (h.claimed ht).mpr hboard
    · rw [List.getElem?_eq_none (by simp; omega)] at hk'
      cases hk'
  · intro t _
    rw [hmasks]
    simp [MaskState.claimed, MaskState.claimedWord, hzero, Device.enter]
  · intro t _
    rw [hmasks]
    simp [MaskState.completed, MaskState.completedWord, hzero, Device.enter, Mark.isCompleted]
  · rw [hmasks]
    simp [Device.enter, Mark.isCounted]

/-! ## Snapshots -/

/-- The bit of a completed task in the low word. -/
theorem completed_low (ht : t < 32) :
    masks.completed t = masks.completedMask.testBit t := by
  rw [MaskState.completed, MaskState.completedWord, if_pos (shiftRight_five_eq_zero.mpr ht),
    Nat.mod_eq_of_lt ht]

/-- The bit of a completed task in the high word. -/
theorem completed_high (hge : 32 ≤ t) (ht : t < kMaximumTasks) :
    masks.completed t = masks.completedMaskHigh.testBit (t - 32) := by
  have hlt : t < 64 := ht
  rw [MaskState.completed, MaskState.completedWord,
    if_neg (mt shiftRight_five_eq_zero.mp (by omega)), show t % 32 = t - 32 by omega]

variable {snapshot : Snapshot}

/-- What a snapshot says of its phase. -/
theorem Sees.phase (h : Sees base d snapshot) (hwords : Words args base d)
    (hprograms : args.programs.length ≤ kMaximumPrograms) :
    ∃ k p, d.entered[k]? = some p ∧ p < args.programs.length ∧ k ≤ d.left.length ∧
      snapshot.phase = makePhase (base + k) p ∧ snapshot.generation = base + k ∧
      phaseProgram snapshot.phase = p ∧ ∀ t, t < kMaximumTasks → snapshot.completedMask.testBit t = true →
        (d.phaseStates (base + k)).completed t = true := by
  obtain ⟨k, p, hk, hphase, hcompleted⟩ := h
  have hp : p < args.programs.length := hwords.programs (List.mem_of_getElem? hk)
  have hle : k ≤ d.left.length := by
    have hlt := (List.getElem?_eq_some_iff.mp hk).1
    simp [Device.entered] at hlt
    omega
  refine ⟨k, p, hk, hp, hle, hphase, ?_, ?_, hcompleted⟩
  · rw [Snapshot.generation, hphase, phaseGeneration_makePhase (hp.trans_le hprograms)]
    have hmax := hwords.lt_max
    exact Nat.mod_eq_of_lt (by omega)
  · rw [hphase, phaseProgram_makePhase (hp.trans_le hprograms)]

/-- A snapshot stays one of an entered phase while phases are entered and tasks completed. -/
theorem Sees.mono (h : Sees base d snapshot)
    (hentered : ∀ {k p : ℕ}, d.entered[k]? = some p → d'.entered[k]? = some p)
    (hcompleted : ∀ {g t}, t < kMaximumTasks → (d.phaseStates g).completed t = true →
      (d'.phaseStates g).completed t = true) :
    Sees base d' snapshot := by
  obtain ⟨k, p, hk, hphase, hbits⟩ := h
  exact ⟨k, p, hentered hk, hphase, fun t ht hbit => hcompleted ht (hbits t ht hbit)⟩

/-- A worker has read the phase. -/
theorem Words.sees (h : Words args base d) : Sees base d { phase := d.state.phase } := by
  refine ⟨d.left.length, d.program, d.entered_last, ?_, fun t _ hbit => ?_⟩
  · rw [← h.generation]
    refine (makePhase_self ?_).symm
    rw [h.generation]
    exact h.lt_max
  · simp at hbit

/-- The claimed words that a worker reads do not matter for what it may rely on. -/
theorem Sees.congr {snapshot snapshot' : Snapshot} (h : Sees base d snapshot)
    (hphase : snapshot'.phase = snapshot.phase)
    (hmask : snapshot'.completedMask = snapshot.completedMask) : Sees base d snapshot' := by
  obtain ⟨k, p, hk, hp, hbits⟩ := h
  exact ⟨k, p, hk, hphase.trans hp, by rwa [hmask]⟩

/-- A worker has read the low completed word. -/
theorem Sees.low (h : Sees base d snapshot) (hwords : Words args base d)
    (hprograms : args.programs.length ≤ kMaximumPrograms) :
    Sees base d { snapshot with
      completedMask := (d.phaseStates snapshot.generation).completedMask } := by
  obtain ⟨k, p, hk, -, -, hphase, hgeneration, -, -⟩ := h.phase hwords hprograms
  refine ⟨k, p, hk, hphase, fun t ht hbit => ?_⟩
  rw [hgeneration] at hbit
  by_cases hlt : t < 32
  · rwa [completed_low hlt]
  · have hout : (d.phaseStates (base + k)).completedMask.testBit t = false :=
      Nat.testBit_lt_two_pow ((hwords.words _).trans_le (Nat.pow_le_pow_right (by norm_num)
        (by omega)))
    rw [hout] at hbit
    cases hbit

/-- A worker has read the high completed word. -/
theorem Sees.high (h : Sees base d snapshot) (hwords : Words args base d)
    (hprograms : args.programs.length ≤ kMaximumPrograms) (hlow : snapshot.completedMask < 2 ^ 32) :
    Sees base d { snapshot with
      completedMask := snapshot.completedMask |||
        ((d.phaseStates snapshot.generation).completedMaskHigh <<< 32) } := by
  obtain ⟨k, p, hk, -, -, hphase, hgeneration, -, hbits⟩ := h.phase hwords hprograms
  refine ⟨k, p, hk, hphase, fun t ht hbit => ?_⟩
  rw [hgeneration, testBit_two_words hlow] at hbit
  by_cases hlt : t < 32
  · rw [if_pos hlt] at hbit
    exact hbits t ht hbit
  · rw [if_neg hlt] at hbit
    rwa [completed_high (by omega) ht]

end Dynamic

end LightRocm.Graph
