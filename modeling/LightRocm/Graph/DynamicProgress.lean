import LightRocm.Graph.DynamicSafety
import Mathlib.Algebra.Order.BigOperators.Group.Finset

/-!
# Progress of the dynamic scheduler

What is left of a launch: the status, the phases, the tasks of the phase and the
workers that have not returned. Some worker is helpful in every state: one that
has a task, the one that ends the phase, worker 0 while a task can be claimed, or
one that has to return.
-/

namespace LightRocm.Graph

/-- What is left to do for a task. -/
def Mark.weight : Mark → ℕ
  | unclaimed => 4
  | executing _ => 3
  | executed _ => 2
  | completed _ => 1
  | counted _ => 0

/-- How far the status is from the end. -/
def Status.rank : Status → ℕ
  | ready => 2
  | running => 1
  | complete | maxSteps | invalidProgram => 0

/-- What is left to do for the tasks of the current phase. -/
def Device.weight (args : ResidentArgs) (d : Device) : ℕ :=
  ∑ t ∈ Finset.range (d.taskCount args), (d.board t).weight

namespace Dynamic

variable {workload : Workload} {args : ResidentArgs} {launch : State} {memory : Memory}
  {workers : Finset ℕ} {s : Sys Pc} {d : Device} {w t : ℕ} {pc : Pc}

/-- The worker has returned. -/
def Pc.isReturned : Pc → Bool
  | .returned _ => true
  | _ => false

/-- The workers that have not returned. -/
def unreturned (workers : Finset ℕ) (pcs : ℕ → Pc) : Finset ℕ :=
  workers.filter fun w => (pcs w).isReturned = false

theorem mem_unreturned {pcs : ℕ → Pc} :
    w ∈ unreturned workers pcs ↔ w ∈ workers ∧ (pcs w).isReturned = false :=
  Finset.mem_filter

/-- What is left of a launch. -/
def remaining (args : ResidentArgs) (workers : Finset ℕ) (s : Sys Pc) : ℕ × ℕ × ℕ × ℕ :=
  (s.device.state.status.rank, args.phaseStateCount - s.device.left.length,
    s.device.weight args, (unreturned workers s.pcs).card)

/-- The lexicographic order of what is left. -/
def Less : ℕ × ℕ × ℕ × ℕ → ℕ × ℕ × ℕ × ℕ → Prop :=
  Prod.Lex (· < ·) (Prod.Lex (· < ·) (Prod.Lex (· < ·) (· < ·)))

theorem wellFounded_less : WellFounded Less :=
  wellFounded_lt.prod_lex (wellFounded_lt.prod_lex (wellFounded_lt.prod_lex wellFounded_lt))

/-- Less is left for the tasks after one of them has got a lighter mark. -/
theorem weight_update {n : ℕ} {board : ℕ → Mark} {mark : Mark} (ht : t < n)
    (hlight : mark.weight < (board t).weight) :
    ∑ i ∈ Finset.range n, (Function.update board t mark i).weight <
      ∑ i ∈ Finset.range n, (board i).weight := by
  refine Finset.sum_lt_sum (fun i _ => ?_) ⟨t, Finset.mem_range.mpr ht, ?_⟩
  · by_cases heq : i = t
    · simpa [heq] using hlight.le
    · simp [heq]
  · simpa using hlight

/-- The launch comes closer to its end. -/
theorem less_of_rank (h : d.state.status.rank < s.device.state.status.rank) :
    Less (remaining args workers (s.turn w d pc)) (remaining args workers s) :=
  .left _ _ h

/-- A phase is over. -/
theorem less_of_left (hstatus : d.state.status = s.device.state.status)
    (hlength : d.left.length = s.device.left.length + 1)
    (hroom : s.device.left.length < args.phaseStateCount) :
    Less (remaining args workers (s.turn w d pc)) (remaining args workers s) := by
  unfold remaining
  rw [show (s.turn w d pc).device = d from rfl, hstatus]
  refine .right _ (.left _ _ ?_)
  omega

/-- A task has come forward. -/
theorem less_of_weight (hstate : d.state = s.device.state) (hleft : d.left = s.device.left)
    {mark : Mark} (hboard : d.board = Function.update s.device.board t mark)
    (ht : t < s.device.taskCount args) (hlight : mark.weight < (s.device.board t).weight) :
    Less (remaining args workers (s.turn w d pc)) (remaining args workers s) := by
  have hweight : d.weight args < s.device.weight args := by
    have hcount : d.taskCount args = s.device.taskCount args := by
      rw [Device.taskCount, Device.program, hstate]
      rfl
    rw [Device.weight, hcount, hboard]
    exact weight_update ht hlight
  unfold remaining
  rw [show (s.turn w d pc).device = d from rfl, hstate, hleft]
  exact .right _ (.right _ (.left _ _ hweight))

/-- A worker returns. -/
theorem less_of_returned (hw : w ∈ workers) (hold : (s.pcs w).isReturned = false)
    (hnew : pc.isReturned = true) :
    Less (remaining args workers (s.turn w s.device pc)) (remaining args workers s) := by
  refine .right _ (.right _ (.right _ (Finset.card_lt_card ?_)))
  have hself : w ∉ unreturned workers (s.turn w s.device pc).pcs := by
    simp [mem_unreturned, Sys.turn, hnew]
  refine (Finset.ssubset_iff_of_subset fun w' hw' => ?_).mpr
    ⟨w, mem_unreturned.mpr ⟨hw, hold⟩, hself⟩
  have hne : w' ≠ w := by
    rintro rfl
    exact hself hw'
  rw [mem_unreturned] at hw' ⊢
  simpa [Sys.turn, hne] using hw'

/-- A turn that leaves the tasks and the status alone leaves as much to do. -/
theorem remaining_eq (hrank : d.state.status = s.device.state.status)
    (hphase : d.state.phase = s.device.state.phase)
    (hleft : d.left = s.device.left) (hboard : d.board = s.device.board)
    (hreturned : pc.isReturned = (s.pcs w).isReturned) :
    remaining args workers (s.turn w d pc) = remaining args workers s := by
  have hfilter : unreturned workers (s.turn w d pc).pcs = unreturned workers s.pcs := by
    refine Finset.filter_congr fun w' _ => ?_
    change (Function.update s.pcs w pc w').isReturned = false ↔ _
    by_cases heq : w' = w
    · simp [heq, hreturned]
    · simp [heq]
  have hweight : d.weight args = s.device.weight args := by
    rw [Device.weight, Device.taskCount, Device.program, hphase, hboard]
    rfl
  unfold remaining
  rw [show (s.turn w d pc).device = d from rfl, hrank, hleft, hweight, hfilter]

/-! ## A task that can be claimed -/

/-- A task that nobody has claimed and whose dependencies are completed. -/
def Claimable (args : ResidentArgs) (d : Device) (t : ℕ) : Prop :=
  t < d.taskCount args ∧ d.board t = .unclaimed ∧
    ∀ i, args.Depends (args.program d.program) t i → (d.board i).isCompleted = true

/-- While nobody has a task and not all are counted, a task can be claimed: follow the
dependencies of an unclaimed task down. -/
theorem exists_claimable (hvalid : ValidProgram args (args.program d.program))
    (hfree : ∀ t, t < d.taskCount args → (d.board t).holder = none)
    (hopen : ¬d.AllCounted args) : ∃ t, Claimable args d t := by
  have hsettled : ∀ t, t < d.taskCount args → d.board t = .unclaimed ∨
      (d.board t).isCounted = true := by
    intro t ht
    have hnone := hfree t ht
    cases hmark : d.board t with
    | unclaimed => exact .inl rfl
    | counted => exact .inr rfl
    | executing | executed | completed =>
      rw [hmark] at hnone
      cases hnone
  obtain ⟨t, ht, hun⟩ : ∃ t, t < d.taskCount args ∧ d.board t = .unclaimed := by
    by_contra hnone
    refine hopen fun t ht => (hsettled t ht).resolve_left fun hun => hnone ⟨t, ht, hun⟩
  have hacc := hvalid.grounded ht
  induction hacc with
  | intro t _ ih =>
    by_cases hdepends : ∃ i, args.Depends (args.program d.program) t i ∧ d.board i = .unclaimed
    · obtain ⟨i, hi, huni⟩ := hdepends
      exact ih i hi (hvalid.lt_of_depends ht hi) huni
    · refine ⟨t, ht, hun, fun i hi => ?_⟩
      have hcounted := (hsettled i (hvalid.lt_of_depends ht hi)).resolve_left
        fun huni => hdepends ⟨i, hi, huni⟩
      cases hmark : d.board i with
      | counted => rfl
      | _ =>
        rw [hmark] at hcounted
        cases hcounted

/-! ## The turns -/

/-- The turns of a worker between the end of the phase and its return. -/
def distance (args : ResidentArgs) : Pc → ℕ
  | .begin => 1
  | .loadPhase => 7 + kMaximumTasks
  | .loadClaimed snapshot => 6 + (snapshot.program args).taskCount
  | .loadClaimedHigh snapshot => 5 + (snapshot.program args).taskCount
  | .loadCompleted snapshot => 4 + (snapshot.program args).taskCount
  | .loadCompletedHigh snapshot => 3 + (snapshot.program args).taskCount
  | .reloadPhase snapshot => 2 + (snapshot.program args).taskCount
  | .scan snapshot offset => 1 + ((snapshot.program args).taskCount - offset)
  | _ => 0

/-- The worker has read the phase and looks for a task. -/
def Pc.looks : Pc → Bool
  | .loadClaimed _ | .loadClaimedHigh _ | .loadCompleted _ | .loadCompletedHigh _
  | .reloadPhase _ | .scan _ _ => true
  | _ => false

/-- Worker `w` claims a task of the phase. -/
def Claims (args : ResidentArgs) (w : ℕ) (d d' : Device) : Prop :=
  ∃ t, t < d.taskCount args ∧ d.board t = .unclaimed ∧ d'.board t = .executing w

/-- The claim of a task leaves less to do. -/
theorem less_of_take (hboard : s.device.board t = .unclaimed) (ht : t < s.device.taskCount args)
    (masks : MaskState) (g : ℕ) :
    Less (remaining args workers (s.turn w ((s.device.setMasks g masks).take w t) pc))
      (remaining args workers s) ∧
    Claims args w s.device (s.turn w ((s.device.setMasks g masks).take w t) pc).device :=
  ⟨less_of_weight rfl rfl rfl ht (by rw [hboard]; simp [Mark.weight]), t, ht, hboard,
    Function.update_self ..⟩

/-- A turn of a worker that looks for a task: it takes one, or it comes closer to the end of
its round. -/
theorem Inv.look (h : Inv args launch s) (workload : Workload) (workers : Finset ℕ)
    (hgraph : ValidGraph args launch) (hlooks : (s.pcs w).looks = true) :
    (Less (remaining args workers (Dynamic.step workload args w s)) (remaining args workers s) ∧
      Claims args w s.device (Dynamic.step workload args w s).device) ∨
    ∃ pc, Dynamic.step workload args w s = s.turn w s.device pc ∧
      (pc = .check ∨ pc.looks = true) ∧ distance args pc < distance args (s.pcs w) := by
  unfold Dynamic.step
  cases hpc : s.pcs w with
  | loadClaimed snapshot =>
    right
    simp only [turn]
    split
    · exact ⟨_, rfl, .inr rfl, by simp [distance, Snapshot.program]⟩
    · exact ⟨_, rfl, .inr rfl, by simp [distance, Snapshot.program]⟩
  | loadClaimedHigh snapshot =>
    exact .inr ⟨_, rfl, .inr rfl, by simp [turn, distance, Snapshot.program]⟩
  | loadCompleted snapshot =>
    right
    simp only [turn]
    split
    · exact ⟨_, rfl, .inr rfl, by simp [distance, Snapshot.program]⟩
    · exact ⟨_, rfl, .inr rfl, by simp [distance, Snapshot.program]⟩
  | loadCompletedHigh snapshot =>
    exact .inr ⟨_, rfl, .inr rfl, by simp [turn, distance, Snapshot.program]⟩
  | reloadPhase snapshot =>
    right
    simp only [turn]
    split
    · exact ⟨_, rfl, .inr rfl, by simp [distance]⟩
    · exact ⟨_, rfl, .inl rfl, by simp [distance]⟩
  | scan snapshot offset =>
    simp only [turn]
    split
    · rename_i hoffset
      have hcloser : distance args (.scan snapshot (offset + 1)) <
          distance args (.scan snapshot offset) := by
        simp only [distance]
        omega
      split
      · rename_i hoffers
        rcases h.claim workload hgraph hpc hoffset hoffers with
          ⟨t, ht, hboard, -, hclaim⟩ | hclaim
        · left
          rw [hclaim]
          exact less_of_take hboard ht _ _
        · rw [hclaim]
          exact .inr ⟨_, rfl, .inr rfl, hcloser⟩
      · exact .inr ⟨_, rfl, .inr rfl, hcloser⟩
    · exact .inr ⟨_, rfl, .inl rfl, by simp [distance]⟩
  | _ =>
    rw [hpc] at hlooks
    cases hlooks

/-- A worker that looks for a task has not returned. -/
theorem Pc.isReturned_of_looks (h : pc.looks = true) : pc.isReturned = false := by
  cases pc with
  | returned => cases h
  | _ => rfl

section Less

variable (workload : Workload) (workers : Finset ℕ) {c : Claim}

/-- The status leaves `ready`. -/
theorem Inv.less_of_publish (h : Inv args launch s) {status : Status}
    (hpc : s.pcs w = .publish status) :
    Less (remaining args workers (Dynamic.step workload args w s)) (remaining args workers s) := by
  have hfit := h.fits w
  unfold Dynamic.step
  rw [hpc] at hfit ⊢
  obtain ⟨-, rfl, hready⟩ := hfit
  refine less_of_rank ?_
  rw [hready]
  exact Nat.one_lt_two

/-- A task has been executed. -/
theorem Inv.less_of_finish (h : Inv args launch s) {a : Action} (hpc : s.pcs w = .execute c a)
    (hdone : a.isDone = true) :
    Less (remaining args workers (Dynamic.step workload args w s)) (remaining args workers s) := by
  have hfit := h.fits w
  have hboard : s.device.board c.task = .executing w := h.held.held (by rw [hpc]; rfl)
  unfold Dynamic.step
  rw [hpc] at hfit ⊢
  simp only [turn, if_pos hdone]
  refine less_of_weight rfl rfl rfl hfit.2.2 ?_
  rw [hboard]
  simp [Mark.weight]

/-- A task has been completed. -/
theorem Inv.less_of_complete (h : Inv args launch s) (hpc : s.pcs w = .complete c) :
    Less (remaining args workers (Dynamic.step workload args w s)) (remaining args workers s) := by
  have hfit := h.fits w
  have hboard : s.device.board c.task = .executed w := h.held.held (by rw [hpc]; rfl)
  unfold Dynamic.step
  rw [hpc] at hfit ⊢
  refine less_of_weight rfl rfl rfl hfit.2.2 ?_
  rw [hboard]
  simp [Mark.weight]

/-- A task has been counted. -/
theorem Inv.less_of_count (h : Inv args launch s) (hpc : s.pcs w = .count c) :
    Less (remaining args workers (Dynamic.step workload args w s)) (remaining args workers s) := by
  have hfit := h.fits w
  have hboard : s.device.board c.task = .completed w := h.held.held (by rw [hpc]; rfl)
  unfold Dynamic.step
  rw [hpc] at hfit ⊢
  refine less_of_weight rfl rfl rfl hfit.2.2 ?_
  rw [hboard]
  simp [Mark.weight]

/-- A phase is over. -/
theorem Inv.less_of_settle (h : Inv args launch s) {outcome : Verdict}
    (hpc : s.pcs w = .settle c outcome) :
    Less (remaining args workers (Dynamic.step workload args w s)) (remaining args workers s) := by
  have hfit := h.fits w
  unfold Dynamic.step
  rw [hpc] at hfit ⊢
  have hrank : s.device.state.status.rank = 1 := by rw [hfit.1.1]; rfl
  cases outcome with
  | complete | maxSteps | exhausted =>
    refine less_of_rank ?_
    rw [hrank]
    exact Nat.zero_lt_one
  | next p =>
    have hroom := h.words.room
    refine less_of_left rfl ?_ (by omega)
    simp [turn, Device.settle, Device.enter]

end Less

/-- **What a turn does.** It leaves less to do, or it changes no more of the shared words
than the memory of the tasks, or it is the first part of the end of a phase. -/
theorem Inv.turn_cases (h : Inv args launch s) (workload : Workload) (hgraph : ValidGraph args launch)
    (hw : w ∈ workers) :
    Less (remaining args workers (Dynamic.step workload args w s)) (remaining args workers s) ∨
    (∃ m pc, Dynamic.step workload args w s = s.turn w { s.device with memory := m } pc ∧
      pc.isReturned = (s.pcs w).isReturned) ∨
    ∃ c, s.pcs w = .advance c := by
  by_cases hlooks : (s.pcs w).looks = true
  · rcases h.look workload workers hgraph hlooks with
      ⟨hless, -⟩ | ⟨pc, hstep, hnext, -⟩
    · exact .inl hless
    · refine .inr (.inl ⟨s.device.memory, pc, hstep, ?_⟩)
      rw [Pc.isReturned_of_looks hlooks]
      rcases hnext with rfl | hnext
      · rfl
      · exact Pc.isReturned_of_looks hnext
  cases hpc : s.pcs w with
  | begin =>
    right; left
    unfold Dynamic.step
    simp only [hpc, turn]
    split
    · exact ⟨s.device.memory, _, rfl, rfl⟩
    · refine ⟨s.device.memory, _, rfl, ?_⟩
      split <;> rfl
  | publish status => exact .inl (h.less_of_publish workload workers hpc)
  | check =>
    unfold Dynamic.step
    simp only [hpc, turn]
    split
    · exact .inr (.inl ⟨s.device.memory, _, rfl, rfl⟩)
    · exact .inl (less_of_returned hw (by rw [hpc]; rfl) rfl)
  | execute c a =>
    by_cases hdone : a.isDone = true
    · exact .inl (h.less_of_finish workload workers hpc hdone)
    · refine .inr (.inl ⟨(a.step s.device.memory).2, .execute c (a.step s.device.memory).1, ?_, rfl⟩)
      unfold Dynamic.step
      simp only [hpc, turn, if_neg hdone]
  | complete c => exact .inl (h.less_of_complete workload workers hpc)
  | count c => exact .inl (h.less_of_count workload workers hpc)
  | advance c => exact .inr (.inr ⟨c, rfl⟩)
  | settle c outcome => exact .inl (h.less_of_settle workload workers hpc)
  | loadPhase | decide | returned =>
    refine .inr (.inl ⟨s.device.memory, (turn workload args w s.device (s.pcs w)).2, ?_, ?_⟩)
    · unfold Dynamic.step
      rw [hpc]
      rfl
    · rw [hpc]
      rfl
  | _ =>
    rw [hpc] at hlooks
    exact absurd rfl hlooks

/-! ## The helpful worker -/

/-- The claimed words of the snapshot are those of the current generation. -/
def Snapshot.ShowsClaimed (args : ResidentArgs) (d : Device) (snapshot : Snapshot) : Prop :=
  snapshot.phase = d.state.phase ∧ snapshot.claimedMask = d.masks.claimedMask ∧
    (32 < d.taskCount args → snapshot.claimedMaskHigh = d.masks.claimedMaskHigh)

/-- The snapshot shows every completed task. -/
def Snapshot.ShowsCompleted (args : ResidentArgs) (d : Device) (snapshot : Snapshot) : Prop :=
  ∀ t, t < d.taskCount args → (d.board t).isCompleted = true →
    snapshot.completedMask.testBit t = true

/-- What worker 0 has read is still true, and a task that it has not looked at can be
claimed. -/
def Fresh (args : ResidentArgs) (d : Device) : Pc → Prop
  | .loadClaimed snapshot => snapshot.phase = d.state.phase
  | .loadClaimedHigh snapshot =>
    snapshot.phase = d.state.phase ∧ snapshot.claimedMask = d.masks.claimedMask
  | .loadCompleted snapshot => snapshot.ShowsClaimed args d
  | .loadCompletedHigh snapshot =>
    snapshot.ShowsClaimed args d ∧ snapshot.completedMask = d.masks.completedMask
  | .reloadPhase snapshot => snapshot.ShowsClaimed args d ∧ snapshot.ShowsCompleted args d
  | .scan snapshot offset => (snapshot.ShowsClaimed args d ∧ snapshot.ShowsCompleted args d) ∧
    ∃ t, offset ≤ t ∧ Claimable args d t
  | _ => False

/-- The turns of worker 0 until it claims a task. With an old snapshot it first has to end
its round. -/
inductive Seeks (args : ResidentArgs) (d : Device) : Pc → ℕ → Prop
  | check : Seeks args d .check 100
  | loadPhase : Seeks args d .loadPhase 99
  | fresh {pc : Pc} (h : Fresh args d pc) : Seeks args d pc (distance args pc)
  | stale {pc : Pc} (h : pc.looks = true) : Seeks args d pc (distance args pc + 200)

/-- The launch runs, tasks are left and nobody has one. -/
structure Vacant (args : ResidentArgs) (d : Device) : Prop where
  running : d.state.status = .running
  free : ∀ t, t < d.taskCount args → (d.board t).holder = none
  opened : ¬d.AllCounted args

/-- The worker that brings the launch forward, and its distance. -/
inductive Helps (args : ResidentArgs) (workers : Finset ℕ) (s : Sys Pc) :
    ℕ → ℕ × Action → Prop
  | validates (hready : s.device.state.status = .ready) (hpc : s.pcs 0 = .begin) :
      Helps args workers s 0 (1, .done)
  | publishes {status : Status} (hpc : s.pcs 0 = .publish status) :
      Helps args workers s 0 (0, .done)
  | executes {w : ℕ} {c : Claim} {a : Action} (hpc : s.pcs w = .execute c a) :
      Helps args workers s w (0, a)
  | completes {w : ℕ} {c : Claim} (hpc : s.pcs w = .complete c) : Helps args workers s w (0, .done)
  | counts {w : ℕ} {c : Claim} (hpc : s.pcs w = .count c) : Helps args workers s w (0, .done)
  | advances {w : ℕ} {c : Claim} (hpc : s.pcs w = .advance c) : Helps args workers s w (2, .done)
  | decides {w : ℕ} {c : Claim} {step : ℕ} (hpc : s.pcs w = .decide c step) :
      Helps args workers s w (1, .done)
  | settles {w : ℕ} {c : Claim} {outcome : Verdict} (hpc : s.pcs w = .settle c outcome) :
      Helps args workers s w (0, .done)
  | seeks {b : ℕ} (hvacant : Vacant args s.device) (hseeks : Seeks args s.device (s.pcs 0) b) :
      Helps args workers s 0 (b, .done)
  | leaves {w : ℕ} (hended : s.device.state.status.Ended) (hw : w ∈ workers)
      (hreturned : (s.pcs w).isReturned = false) :
      Helps args workers s w (distance args (s.pcs w), .done)

/-- The order of the distances. -/
def Sooner : ℕ × Action → ℕ × Action → Prop :=
  Prod.Lex (· < ·) TaskGraph.Action.Next

theorem wellFounded_sooner : WellFounded Sooner :=
  wellFounded_lt.prod_lex TaskGraph.Action.wellFounded_next

/-- The launch and the workers that have started. -/
structure Started (args : ResidentArgs) (launch : State) (workers : Finset ℕ) (s : Sys Pc) :
    Prop where
  sound : Sound args launch s
  zero : 0 ∈ workers
  begin : ∀ w, w ∉ workers → s.pcs w = .begin

/-- All workers that have started have returned. -/
def AllReturned (workers : Finset ℕ) (s : Sys Pc) : Prop :=
  ∀ w ∈ workers, (s.pcs w).isReturned = true

/-- While the launch runs, some worker that has begun is helpful. -/
theorem Inv.exists_helps (h : Inv args launch s) (workers : Finset ℕ)
    (hrunning : s.device.state.status = .running) :
    ∃ w b, s.pcs w ≠ .begin ∧ Helps args workers s w b := by
  have hready : s.device.state.status ≠ .ready := by rw [hrunning]; exact nofun
  have hended : ¬s.device.state.status.Ended := fun hended => hended.2 hrunning
  -- A worker that has a task or ends the phase is helpful.
  by_cases hbusy : ∃ w, (s.pcs w).mark w ≠ none
  · obtain ⟨w, hmark⟩ := hbusy
    cases hpc : s.pcs w with
    | execute c a => exact ⟨w, _, by rw [hpc]; exact nofun, .executes hpc⟩
    | complete c => exact ⟨w, _, by rw [hpc]; exact nofun, .completes hpc⟩
    | count c => exact ⟨w, _, by rw [hpc]; exact nofun, .counts hpc⟩
    | _ =>
      rw [hpc] at hmark
      exact absurd rfl hmark
  by_cases hall : s.device.AllCounted args
  · obtain ⟨w, hclosing⟩ := h.closes hrunning hall
    cases hpc : s.pcs w with
    | advance c => exact ⟨w, _, by rw [hpc]; exact nofun, .advances hpc⟩
    | decide c step => exact ⟨w, _, by rw [hpc]; exact nofun, .decides hpc⟩
    | settle c outcome => exact ⟨w, _, by rw [hpc]; exact nofun, .settles hpc⟩
    | _ =>
      rw [hpc] at hclosing
      cases hclosing
  -- Otherwise worker 0 looks for a task.
  have hvacant : Vacant args s.device := by
    refine ⟨hrunning, fun t _ => ?_, hall⟩
    cases hholder : (s.device.board t).holder with
    | none => rfl
    | some w =>
      refine absurd ⟨w, ?_⟩ hbusy
      rw [h.held.holder hholder]
      exact nofun
  have hfit := h.fits 0
  have hfree : (s.pcs 0).mark 0 = none := by
    by_contra hmark
    exact hbusy ⟨0, hmark⟩
  have hseeks : s.pcs 0 ≠ .begin ∧ ∃ b, Seeks args s.device (s.pcs 0) b := by
    cases hpc : s.pcs 0 with
    | begin =>
      rw [hpc] at hfit
      obtain ⟨hstate, hinit⟩ := hfit rfl
      exact absurd (hstate ▸ hinit) hready
    | publish => rw [hpc] at hfit; exact absurd hfit.2.2 hready
    | check => exact ⟨nofun, _, .check⟩
    | loadPhase => exact ⟨nofun, _, .loadPhase⟩
    | loadClaimed | loadClaimedHigh | loadCompleted | loadCompletedHigh | reloadPhase | scan =>
      exact ⟨nofun, _, .stale rfl⟩
    | execute | complete | count =>
      rw [hpc] at hfree
      cases hfree
    | advance => rw [hpc] at hfit; exact absurd hfit.2.2 hall
    | decide | settle => rw [hpc] at hfit; exact absurd hfit.1.2.2 hall
    | returned => rw [hpc] at hfit; exact absurd hfit.2 hended
  obtain ⟨hbegun, b, hb⟩ := hseeks
  exact ⟨0, _, hbegun, .seeks hvacant hb⟩

/-- Some worker is helpful until all have returned. -/
theorem Started.exists_helps (h : Started args launch workers s)
    (hnot : ¬AllReturned workers s) : ∃ w b, w ∈ workers ∧ Helps args workers s w b := by
  have hinv := h.sound.inv
  by_cases hended : s.device.state.status.Ended
  · unfold AllReturned at hnot
    push Not at hnot
    obtain ⟨w, hw, hreturned⟩ := hnot
    exact ⟨w, _, hw, .leaves hended hw (Bool.eq_false_of_not_eq_true hreturned)⟩
  by_cases hready : s.device.state.status = .ready
  · rcases hinv.begin_or_publish hready 0 with hpc | ⟨-, status, hpc⟩
    · exact ⟨0, _, h.zero, .validates hready hpc⟩
    · exact ⟨0, _, h.zero, .publishes hpc⟩
  have hrunning : s.device.state.status = .running := by
    by_contra hne
    exact hended ⟨hready, hne⟩
  obtain ⟨w, b, hbegun, hhelps⟩ := hinv.exists_helps workers hrunning
  refine ⟨w, b, ?_, hhelps⟩
  by_contra hw
  exact hbegun (h.begin _ hw)

/-- The bits of the completed tasks in the two words that a worker puts together. -/
theorem Words.testBit_completed {base : ℕ} (h : Words args base d)
    (hle : d.taskCount args ≤ kMaximumTasks) (ht : t < d.taskCount args)
    (hcompleted : (d.board t).isCompleted = true) :
    (d.masks.completedMask ||| d.masks.completedMaskHigh <<< 32).testBit t = true ∧
      (d.taskCount args ≤ 32 → d.masks.completedMask.testBit t = true) := by
  have hbit : d.masks.completed t = true := (h.completed ht).trans hcompleted
  constructor
  · have hword : d.masks.completedMask < 2 ^ 32 := h.words _
    rw [testBit_two_words hword]
    split
    · rename_i hlow
      rwa [completed_low hlow] at hbit
    · rename_i hlow
      rwa [completed_high (by omega) (ht.trans_le hle)] at hbit
  · intro hsmall
    rwa [completed_low (by omega)] at hbit

/-- A snapshot of the current words offers every task that can be claimed. -/
theorem Snapshot.offers_of_claimable {snapshot : Snapshot}
    (hvalid : ValidProgram args (args.program d.program))
    (hclaimed : snapshot.ShowsClaimed args d) (hcompleted : snapshot.ShowsCompleted args d)
    {base : ℕ} (hwords : Words args base d) (ht : Claimable args d t) :
    snapshot.Offers args t := by
  obtain ⟨hphase, hlow, hhigh⟩ := hclaimed
  obtain ⟨hlt, hboard, hdepends⟩ := ht
  have hprogram : snapshot.program args = args.program d.program := by
    rw [Snapshot.program, hphase, Device.program]
  have hword : snapshot.claimedWord t = d.masks.claimedWord t := by
    unfold Snapshot.claimedWord MaskState.claimedWord
    by_cases hsmall : t >>> 5 = 0
    · rw [if_pos hsmall, if_pos hsmall, hlow]
    · have hge : 32 < d.taskCount args := by
        have hnot := mt shiftRight_five_eq_zero.mpr hsmall
        omega
      rw [if_neg hsmall, if_neg hsmall, hhigh hge]
  constructor
  · rw [hword, claimedWord_and_eq_zero]
    exact Bool.eq_false_iff.mpr fun hbit => (hwords.claimed hlt).mp hbit hboard
  · rw [hprogram, and_eq_left_iff]
    intro i hi
    exact hcompleted i (hvalid.lt_of_depends hlt hi) (hdepends i hi)

/-- A turn of worker 0 while it looks for a task with what it has read being true. -/
theorem Inv.seek_fresh (h : Inv args launch s) (workload : Workload) (workers : Finset ℕ)
    (hgraph : ValidGraph args launch) (hvacant : Vacant args s.device)
    (hfresh : Fresh args s.device (s.pcs 0)) :
    (Less (remaining args workers (Dynamic.step workload args 0 s)) (remaining args workers s) ∧
      Claims args 0 s.device (Dynamic.step workload args 0 s).device) ∨
    ∃ pc, Dynamic.step workload args 0 s = s.turn 0 s.device pc ∧ Fresh args s.device pc ∧
      distance args pc < distance args (s.pcs 0) := by
  have hvalid := hgraph.program h.words.program_lt
  have hle := h.words.taskCount_le hgraph
  have hprogram : ∀ {snapshot : Snapshot}, snapshot.phase = s.device.state.phase →
      (snapshot.program args).taskCount = s.device.taskCount args ∧
        s.device.phaseStates snapshot.generation = s.device.masks := by
    intro snapshot hphase
    rw [Snapshot.program, Snapshot.generation, hphase]
    exact ⟨rfl, rfl⟩
  unfold Dynamic.step
  cases hpc : s.pcs 0 with
  | loadClaimed snapshot =>
    rw [hpc] at hfresh
    obtain ⟨hcount, hmasks⟩ := hprogram hfresh
    right
    simp only [turn, hcount, hmasks]
    split
    · exact ⟨_, rfl, ⟨hfresh, rfl⟩, by simp [distance, Snapshot.program]⟩
    · rename_i hsmall
      exact ⟨_, rfl, ⟨hfresh, rfl, fun hlarge => absurd hlarge hsmall⟩,
        by simp [distance, Snapshot.program]⟩
  | loadClaimedHigh snapshot =>
    rw [hpc] at hfresh
    obtain ⟨-, hmasks⟩ := hprogram hfresh.1
    right
    simp only [turn, hmasks]
    exact ⟨_, rfl, ⟨hfresh.1, hfresh.2, fun _ => rfl⟩, by simp [distance, Snapshot.program]⟩
  | loadCompleted snapshot =>
    rw [hpc] at hfresh
    obtain ⟨hcount, hmasks⟩ := hprogram hfresh.1
    right
    simp only [turn, hcount, hmasks]
    split
    · exact ⟨_, rfl, ⟨hfresh, rfl⟩, by simp [distance, Snapshot.program]⟩
    · rename_i hsmall
      refine ⟨_, rfl, ⟨hfresh, fun t ht hcompleted => ?_⟩, by simp [distance, Snapshot.program]⟩
      exact (h.words.testBit_completed hle ht hcompleted).2 (by omega)
  | loadCompletedHigh snapshot =>
    rw [hpc] at hfresh
    obtain ⟨hclaimed, hlow⟩ := hfresh
    obtain ⟨-, hmasks⟩ := hprogram hclaimed.1
    right
    simp only [turn, hmasks, hlow]
    refine ⟨_, rfl, ⟨hclaimed, fun t ht hcompleted => ?_⟩, by simp [distance, Snapshot.program]⟩
    exact (h.words.testBit_completed hle ht hcompleted).1
  | reloadPhase snapshot =>
    rw [hpc] at hfresh
    right
    simp only [turn, if_pos hfresh.1.1]
    obtain ⟨t, ht⟩ := exists_claimable hvalid hvacant.free hvacant.opened
    exact ⟨_, rfl, ⟨hfresh, t, t.zero_le, ht⟩, by simp [distance]⟩
  | scan snapshot offset =>
    rw [hpc] at hfresh
    obtain ⟨⟨hclaimed, hcompleted⟩, t, hoffset, ht⟩ := hfresh
    obtain ⟨hcount, hmasks⟩ := hprogram hclaimed.1
    have hlt : offset < s.device.taskCount args := hoffset.trans_lt ht.1
    have hcandidate : candidate 0 offset (s.device.taskCount args) = offset := by
      rw [candidate, Nat.zero_add, Nat.mod_eq_of_lt hlt]
    -- The task it looks at is claimed, or the one that can be claimed comes later.
    have hlater : t ≠ offset → Fresh args s.device (.scan snapshot (offset + 1)) ∧
        distance args (.scan snapshot (offset + 1)) < distance args (.scan snapshot offset) := by
      intro hne
      refine ⟨⟨⟨hclaimed, hcompleted⟩, t, by omega, ht⟩, ?_⟩
      simp only [distance, hcount]
      omega
    simp only [turn]
    rw [if_pos (hcount.symm ▸ hlt), hcount, hcandidate]
    split
    · rename_i hoffers
      rcases h.claim workload hgraph hpc (hcount.symm ▸ hlt)
        (by rwa [hcount, hcandidate]) with ⟨t', ht', hboard, -, hclaim⟩ | hclaim
      · left
        rw [hclaim]
        exact less_of_take hboard ht' _ _
      · right
        rw [hclaim]
        refine ⟨_, rfl, hlater ?_⟩
        rintro rfl
        have hzero : s.device.masks.claimedWord t &&& taskMask t = 0 :=
          claimedWord_and_eq_zero.mpr (Bool.eq_false_iff.mpr fun hbit =>
            (h.words.claimed ht.1).mp hbit ht.2.1)
        simp [Dynamic.claim, hcount, hcandidate, hmasks, hzero] at hclaim
    · rename_i hoffers
      right
      refine ⟨_, rfl, hlater ?_⟩
      rintro rfl
      exact hoffers (Snapshot.offers_of_claimable hvalid hclaimed hcompleted h.words ht)
  | _ =>
    rw [hpc] at hfresh
    exact hfresh.elim

/-- A turn of worker 0 while tasks are left and nobody has one. -/
theorem Inv.seek (h : Inv args launch s) (workload : Workload) (workers : Finset ℕ)
    (hgraph : ValidGraph args launch) (hvacant : Vacant args s.device) {b : ℕ}
    (hseeks : Seeks args s.device (s.pcs 0) b) :
    (Less (remaining args workers (Dynamic.step workload args 0 s)) (remaining args workers s) ∧
      Claims args 0 s.device (Dynamic.step workload args 0 s).device) ∨
    ∃ pc b', Dynamic.step workload args 0 s = s.turn 0 s.device pc ∧
      pc.isReturned = (s.pcs 0).isReturned ∧ Seeks args s.device pc b' ∧ b' < b := by
  generalize hpc : s.pcs 0 = pc at hseeks
  cases hseeks with
  | check =>
    refine .inr ⟨.loadPhase, 99, ?_, rfl, .loadPhase, by norm_num⟩
    unfold Dynamic.step
    simp only [hpc, turn, if_pos hvacant.running]
  | loadPhase =>
    refine .inr ⟨.loadClaimed { phase := s.device.state.phase }, _, ?_, rfl, .fresh rfl, ?_⟩
    · unfold Dynamic.step
      simp only [hpc, turn]
    · have hle : s.device.taskCount args ≤ 64 := h.words.taskCount_le hgraph
      change 6 + s.device.taskCount args < 99
      omega
  | fresh hfresh =>
    have hlooks : pc.isReturned = false := by
      cases pc with
      | returned => exact hfresh.elim
      | _ => rfl
    rcases h.seek_fresh workload workers hgraph hvacant (hpc ▸ hfresh) with
      hless | ⟨pc', hstep, hfresh', hcloser⟩
    · exact .inl hless
    · refine .inr ⟨pc', _, hstep, ?_, .fresh hfresh', hpc ▸ hcloser⟩
      rw [hlooks]
      cases pc' with
      | returned => exact hfresh'.elim
      | _ => rfl
  | stale hlooks =>
    rcases h.look workload workers hgraph (hpc ▸ hlooks) with
      hless | ⟨pc', hstep, rfl | hnext, hcloser⟩
    · exact .inl hless
    · exact .inr ⟨.check, _, hstep, (Pc.isReturned_of_looks hlooks).symm, .check, by omega⟩
    · rw [hpc] at hcloser
      exact .inr ⟨pc', _, hstep, (Pc.isReturned_of_looks hnext).trans
        (Pc.isReturned_of_looks hlooks).symm, .stale hnext, by omega⟩

/-- A turn of a worker that has to return after the launch has ended. -/
theorem Inv.leave (h : Inv args launch s) (workload : Workload) {workers : Finset ℕ}
    (hgraph : ValidGraph args launch) (hended : s.device.state.status.Ended) (hw : w ∈ workers)
    (hreturned : (s.pcs w).isReturned = false) :
    Less (remaining args workers (Dynamic.step workload args w s)) (remaining args workers s) ∨
    ∃ pc, Dynamic.step workload args w s = s.turn w s.device pc ∧ pc.isReturned = false ∧
      distance args pc < distance args (s.pcs w) := by
  have hfit := h.fits w
  by_cases hlooks : (s.pcs w).looks = true
  · rcases h.look workload workers hgraph hlooks with
      ⟨hless, -⟩ | ⟨pc, hstep, rfl | hnext, hcloser⟩
    · exact .inl hless
    · exact .inr ⟨_, hstep, rfl, hcloser⟩
    · exact .inr ⟨_, hstep, Pc.isReturned_of_looks hnext, hcloser⟩
  unfold Dynamic.step
  cases hpc : s.pcs w with
  | begin =>
    rw [hpc] at hfit
    have hne : w ≠ 0 := by
      intro hzero
      obtain ⟨hstate, hready⟩ := hfit hzero
      exact hended.1 (hstate ▸ hready)
    right
    simp only [turn, if_neg hne, if_neg hended.1]
    exact ⟨.check, rfl, rfl, by simp [distance]⟩
  | check =>
    simp only [turn, if_neg hended.2]
    exact .inl (less_of_returned hw (by rw [hpc]; rfl) rfl)
  | loadPhase =>
    refine .inr ⟨_, rfl, rfl, ?_⟩
    have hle : s.device.taskCount args ≤ kMaximumTasks := h.words.taskCount_le hgraph
    change 6 + s.device.taskCount args < 7 + kMaximumTasks
    omega
  | publish => rw [hpc] at hfit; exact absurd hfit.2.2 hended.1
  | execute | complete | count | advance =>
    rw [hpc] at hfit
    exact absurd hfit.1 hended.2
  | decide | settle =>
    rw [hpc] at hfit
    exact absurd hfit.1.1 hended.2
  | returned =>
    rw [hpc] at hreturned
    cases hreturned
  | _ =>
    rw [hpc] at hlooks
    exact absurd rfl hlooks

variable {b : ℕ × Action}

/-- The turn of another worker that changes the memory at most leaves the helpful one as it
is. -/
theorem Helps.quiet {h : ℕ} (hhelps : Helps args workers s h b) (hne : w ≠ h) (m : Memory) :
    Helps args workers (s.turn w { s.device with memory := m } pc) h b := by
  have hsame : (s.turn w { s.device with memory := m } pc).pcs h = s.pcs h :=
    Function.update_of_ne hne.symm _ _
  cases hhelps with
  | validates hready hpc => exact .validates hready (hsame.trans hpc)
  | publishes hpc => exact .publishes (hsame.trans hpc)
  | executes hpc => exact .executes (hsame.trans hpc)
  | completes hpc => exact .completes (hsame.trans hpc)
  | counts hpc => exact .counts (hsame.trans hpc)
  | advances hpc => exact .advances (hsame.trans hpc)
  | decides hpc => exact .decides (hsame.trans hpc)
  | settles hpc => exact .settles (hsame.trans hpc)
  | seeks hvacant hseeks =>
    refine .seeks ⟨hvacant.running, hvacant.free, hvacant.opened⟩ ?_
    rw [hsame]
    generalize s.pcs 0 = pc' at hseeks
    cases hseeks with
    | check => exact .check
    | loadPhase => exact .loadPhase
    | fresh hfresh =>
      refine .fresh ?_
      cases pc' <;> exact hfresh
    | stale hlooks => exact .stale hlooks
  | leaves hended hw hreturned =>
    rw [← hsame]
    exact .leaves hended hw (by rw [hsame]; exact hreturned)

/-- While another worker is about to end the phase, nobody else is helpful. -/
theorem Helps.eq_of_closing {h : ℕ} (hhelps : Helps args workers s h b) (hinv : Inv args launch s)
    (hclosing : (s.pcs w).closing = true) (hrunning : s.device.state.status = .running) :
    w = h := by
  have hall := hinv.allCounted hclosing
  have hfree := hinv.mark_eq_none hall h
  have hfit := hinv.fits h
  cases hhelps with
  | validates hready => rw [hrunning] at hready; cases hready
  | publishes hpc =>
    rw [hpc] at hfit
    have hready := hfit.2.2
    rw [hrunning] at hready
    cases hready
  | executes hpc | completes hpc | counts hpc =>
    rw [hpc] at hfree
    cases hfree
  | advances hpc | decides hpc | settles hpc => exact hinv.unique hclosing (by rw [hpc]; rfl)
  | seeks hvacant => exact absurd hall hvacant.opened
  | leaves hended => exact absurd hrunning hended.2

/-- Every turn of a worker brings the launch forward. -/
theorem Started.advances (hstarted : Started args launch workers s) (workload : Workload)
    (hgraph : ValidGraph args launch) {h : ℕ} (hhelps : Helps args workers s h b) (hw : w ∈ workers)
    : Turns.Advances Less Sooner (remaining args workers)
      (Helps args workers) h b w s (Dynamic.step workload args w s) := by
  have hinv := hstarted.sound.inv
  by_cases hne : w ≠ h
  · rcases hinv.turn_cases workload hgraph hw with
      hless | ⟨m, pc, hstep, hreturned⟩ | ⟨c, hpc⟩
    · exact .shrinks hless
    · rw [hstep]
      exact .waits (remaining_eq rfl rfl rfl rfl hreturned) (hhelps.quiet hne m) hne
    · have hfit := hinv.fits w
      rw [hpc] at hfit
      exact absurd (hhelps.eq_of_closing hinv (by rw [hpc]; rfl) hfit.1) hne
  obtain rfl : w = h := not_not.mp hne
  cases hhelps with
  | validates hready hpc =>
    have hstep : Dynamic.step workload args 0 s = s.turn 0 s.device (.publish
        (if validatePrograms workload args s.device.state then .running else .invalidProgram)) := by
      unfold Dynamic.step
      simp only [hpc, turn, if_true]
    rw [hstep]
    refine .closer (0, .done) (remaining_eq rfl rfl rfl rfl (by rw [hpc]; rfl)) ?_
      (.left _ _ Nat.zero_lt_one)
    exact .publishes (Sys.turn_pcs_self ..)
  | publishes hpc => exact .shrinks (hinv.less_of_publish workload workers hpc)
  | executes hpc =>
    rename_i c a
    by_cases hdone : a.isDone = true
    · exact .shrinks (hinv.less_of_finish workload workers hpc hdone)
    have hstep : Dynamic.step workload args w s = s.turn w
        { s.device with memory := (a.step s.device.memory).2 }
        (.execute c (a.step s.device.memory).1) := by
      unfold Dynamic.step
      simp only [hpc, turn, if_neg hdone]
    rw [hstep]
    refine .closer (0, (a.step s.device.memory).1)
      (remaining_eq rfl rfl rfl rfl (by rw [hpc]; rfl)) ?_ (.right _ ⟨?_, s.device.memory, rfl⟩)
    · exact .executes (Sys.turn_pcs_self ..)
    · exact Bool.eq_false_iff.mpr hdone
  | completes hpc => exact .shrinks (hinv.less_of_complete workload workers hpc)
  | counts hpc => exact .shrinks (hinv.less_of_count workload workers hpc)
  | advances hpc =>
    rename_i c
    have hstep : Dynamic.step workload args w s =
        s.turn w (s.device.advance (args.program c.program))
          (.decide c (nextStep (args.program c.program) s.device.state)) := by
      unfold Dynamic.step
      simp only [hpc, turn]
    rw [hstep]
    refine .closer (1, .done) (remaining_eq rfl rfl rfl rfl (by rw [hpc]; rfl)) ?_
      (.left _ _ Nat.one_lt_two)
    exact .decides (Sys.turn_pcs_self ..)
  | decides hpc =>
    rename_i c step
    have hstep : Dynamic.step workload args w s = s.turn w s.device (.settle c
        (verdict args (args.program c.program) c.generation step s.device)) := by
      unfold Dynamic.step
      simp only [hpc, turn]
    rw [hstep]
    refine .closer (0, .done) (remaining_eq rfl rfl rfl rfl (by rw [hpc]; rfl)) ?_
      (.left _ _ Nat.zero_lt_one)
    exact .settles (Sys.turn_pcs_self ..)
  | settles hpc => exact .shrinks (hinv.less_of_settle workload workers hpc)
  | seeks hvacant hseeks =>
    rcases hinv.seek workload workers hgraph hvacant hseeks with
      ⟨hless, -⟩ | ⟨pc, b', hstep, hreturned, hseeks', hcloser⟩
    · exact .shrinks hless
    · rw [hstep]
      refine .closer (b', .done) (remaining_eq rfl rfl rfl rfl hreturned) (.seeks hvacant ?_)
        (.left _ _ hcloser)
      rwa [Sys.turn_pcs_self]
  | leaves hended _ hreturned =>
    rcases hinv.leave workload hgraph hended hw hreturned with
      hless | ⟨pc, hstep, hreturned', hcloser⟩
    · exact .shrinks hless
    · rw [hstep]
      refine .closer (distance args pc, .done)
        (remaining_eq rfl rfl rfl rfl (hreturned'.trans hreturned.symm)) ?_ (.left _ _ hcloser)
      have hleaves : Helps args workers (s.turn w s.device pc) w
          (distance args ((s.turn w s.device pc).pcs w), .done) :=
        .leaves hended hw (by rw [Sys.turn_pcs_self]; exact hreturned')
      rwa [Sys.turn_pcs_self] at hleaves

/-! ## Runs -/

/-- What a worker brings about: it claims a task, it completes the task it has, or it ends a
phase that has no task left. -/
inductive Moves (args : ResidentArgs) (w : ℕ) (d d' : Device) : Prop
  | claims (h : Claims args w d d')
  | completes {t : ℕ} (hold : (d.board t).holder = some w) (hnew : d'.board t = .counted w)
  | ends (hall : d.AllCounted args)
      (hnew : d.left.length < d'.left.length ∨ d'.state.status.Ended)

section Solo

variable (workload : Workload) (args : ResidentArgs) {c : Claim}

/-- A worker that has completed a task counts it. -/
theorem exists_solo_of_count (hpc : s.pcs w = .count c) :
    ∃ n, (Turns.solo (step workload args) w n s).device.board c.task = .counted w := by
  refine ⟨1, ?_⟩
  change (step workload args w s).device.board c.task = _
  unfold step
  rw [hpc]
  exact Function.update_self ..

/-- A worker that has executed a task completes and counts it. -/
theorem exists_solo_of_complete (hpc : s.pcs w = .complete c) :
    ∃ n, (Turns.solo (step workload args) w n s).device.board c.task = .counted w := by
  have hnext : (step workload args w s).pcs w = .count c := by
    unfold step
    rw [hpc, Sys.turn_pcs_self]
    rfl
  obtain ⟨n, hn⟩ := exists_solo_of_count workload args hnext
  exact ⟨n + 1, hn⟩

/-- A worker that executes a task brings it to its end. -/
theorem exists_solo_of_execute {a : Action} (hpc : s.pcs w = .execute c a) :
    ∃ n, (Turns.solo (step workload args) w n s).device.board c.task = .counted w := by
  have hwell : WellFounded (TaskGraph.Action.Next : Action → Action → Prop) :=
    TaskGraph.Action.wellFounded_next
  induction a using hwell.induction generalizing s with
  | h a ih =>
    by_cases hdone : a.isDone = true
    · have hnext : (step workload args w s).pcs w = .complete c := by
        unfold step
        rw [hpc, Sys.turn_pcs_self]
        simp only [turn, if_pos hdone]
      obtain ⟨n, hn⟩ := exists_solo_of_complete workload args hnext
      exact ⟨n + 1, hn⟩
    · have hnext : (step workload args w s).pcs w = .execute c (a.step s.device.memory).1 := by
        unfold step
        rw [hpc, Sys.turn_pcs_self]
        simp only [turn, if_neg hdone]
      obtain ⟨n, hn⟩ := ih _ ⟨Bool.eq_false_iff.mpr hdone, s.device.memory, rfl⟩ hnext
      exact ⟨n + 1, hn⟩

/-- A worker that ends a phase publishes the next one or ends the launch. -/
theorem step_of_settle {outcome : Verdict} (hpc : s.pcs w = .settle c outcome) :
    s.device.left.length < (step workload args w s).device.left.length ∨
      (step workload args w s).device.state.status.Ended := by
  unfold step
  rw [hpc]
  cases outcome with
  | complete | maxSteps | exhausted => exact .inr ⟨nofun, nofun⟩
  | next p =>
    left
    simp [Sys.turn, turn, Device.settle, Device.enter]

theorem exists_solo_of_decide {step : ℕ} (hpc : s.pcs w = .decide c step) :
    ∃ n, s.device.left.length <
        (Turns.solo (Dynamic.step workload args) w n s).device.left.length ∨
      (Turns.solo (Dynamic.step workload args) w n s).device.state.status.Ended := by
  have hnext : (Dynamic.step workload args w s).pcs w = .settle c
      (verdict args (args.program c.program) c.generation step s.device) := by
    unfold Dynamic.step
    rw [hpc, Sys.turn_pcs_self]
    rfl
  have hleft : (Dynamic.step workload args w s).device = s.device := by
    unfold Dynamic.step
    rw [hpc]
    rfl
  have hsettle := step_of_settle workload args hnext
  rw [hleft] at hsettle
  exact ⟨2, hsettle⟩

theorem exists_solo_of_advance (hpc : s.pcs w = .advance c) :
    ∃ n, s.device.left.length < (Turns.solo (step workload args) w n s).device.left.length ∨
      (Turns.solo (step workload args) w n s).device.state.status.Ended := by
  have hnext : (step workload args w s).pcs w =
      .decide c (nextStep (args.program c.program) s.device.state) := by
    unfold step
    rw [hpc, Sys.turn_pcs_self]
    rfl
  have hleft : (step workload args w s).device.left = s.device.left := by
    unfold step
    rw [hpc]
    rfl
  obtain ⟨n, hn⟩ := exists_solo_of_decide workload args hnext
  rw [hleft] at hn
  exact ⟨n + 1, hn⟩

end Solo

/-- Worker 0 alone claims a task while tasks are left and nobody has one. -/
theorem Inv.exists_claims (h : Inv args launch s)
    (hvalid : validatePrograms workload args launch = true) (hvacant : Vacant args s.device)
    {b : ℕ} (hseeks : Seeks args s.device (s.pcs 0) b) :
    ∃ n, Claims args 0 s.device (Turns.solo (Dynamic.step workload args) 0 n s).device := by
  induction b using Nat.strong_induction_on generalizing s with
  | _ b ih =>
    rcases h.seek workload ∅ (validGraph_of_validate hvalid) hvacant hseeks with
      ⟨-, hclaims⟩ | ⟨pc, b', hstep, -, hseeks', hlt⟩
    · exact ⟨1, hclaims⟩
    · have hinv : Inv args launch (Dynamic.step workload args 0 s) :=
        h.step hvalid (by rw [hstep]; exact h.words.lt_max)
      rw [hstep] at hinv
      obtain ⟨n, hn⟩ := ih b' hlt hinv hvacant (by rwa [Sys.turn_pcs_self])
      refine ⟨n + 1, ?_⟩
      change Claims _ _ _ (Turns.solo _ 0 n (Dynamic.step workload args 0 s)).device
      rwa [hstep]

/-- While the launch runs, some worker that has begun brings it forward on its own. -/
theorem Inv.exists_moves (h : Inv args launch s)
    (hvalid : validatePrograms workload args launch = true)
    (hrunning : s.device.state.status = .running) :
    ∃ w n, s.pcs w ≠ .begin ∧
      Moves args w s.device (Turns.solo (Dynamic.step workload args) w n s).device := by
  have hbusy : ∀ {w : ℕ} {c : Claim} {mark : Mark}, (s.pcs w).mark w = some (c.task, mark) →
      (∃ n, (Turns.solo (Dynamic.step workload args) w n s).device.board c.task = .counted w) →
      ∃ n, Moves args w s.device (Turns.solo (Dynamic.step workload args) w n s).device := by
    rintro w c mark hmark ⟨n, hn⟩
    refine ⟨n, .completes ?_ hn⟩
    rw [h.held.held hmark]
    exact Pc.holder_of_mark hmark
  obtain ⟨w, b, hbegun, hhelps⟩ := h.exists_helps ∅ hrunning
  suffices hmoves : ∃ n, Moves args w s.device
      (Turns.solo (Dynamic.step workload args) w n s).device by
    obtain ⟨n, hn⟩ := hmoves
    exact ⟨w, n, hbegun, hn⟩
  cases hhelps with
  | validates hready => rw [hrunning] at hready; cases hready
  | publishes hpc =>
    have hfit := h.fits 0
    rw [hpc] at hfit
    have hready := hfit.2.2
    rw [hrunning] at hready
    cases hready
  | executes hpc =>
    exact hbusy (by rw [hpc]; rfl) (exists_solo_of_execute workload args hpc)
  | completes hpc =>
    exact hbusy (by rw [hpc]; rfl) (exists_solo_of_complete workload args hpc)
  | counts hpc =>
    exact hbusy (by rw [hpc]; rfl) (exists_solo_of_count workload args hpc)
  | advances hpc =>
    obtain ⟨n, hn⟩ := exists_solo_of_advance workload args hpc
    exact ⟨n, .ends (h.allCounted (by rw [hpc]; rfl)) hn⟩
  | decides hpc =>
    obtain ⟨n, hn⟩ := exists_solo_of_decide workload args hpc
    exact ⟨n, .ends (h.allCounted (by rw [hpc]; rfl)) hn⟩
  | settles hpc =>
    exact ⟨1, .ends (h.allCounted (by rw [hpc]; rfl)) (step_of_settle workload args hpc)⟩
  | seeks hvacant hseeks =>
    obtain ⟨n, hn⟩ := h.exists_claims hvalid hvacant hseeks
    exact ⟨n, .claims hn⟩
  | leaves hended => exact absurd hrunning hended.2

/-- A turn of a worker that has started. -/
theorem Started.step (h : Started args launch workers s)
    (hvalid : validatePrograms workload args launch = true)
    (hcount : args.phaseStateCount ≤ kMaximumPhaseStates) (hw : w ∈ workers) :
    Started args launch workers (Dynamic.step workload args w s) where
  sound := h.sound.step hvalid (h.sound.inv.room_step.trans_le hcount)
  zero := h.zero
  begin w' hw' := by
    have hne : w' ≠ w := fun heq => hw' (heq ▸ hw)
    exact (Function.update_of_ne hne _ _).trans (h.begin w' hw')

/-- Every fair run of a launch ends with all its workers returned. -/
theorem exists_allReturned (hvalid : validatePrograms workload args launch = true)
    (hready : launch.status = .ready) (hcount : args.phaseStateCount ≤ kMaximumPhaseStates)
    (hzero : 0 ∈ workers) {schedule : ℕ → ℕ} (hfair : Turns.Fair (· ∈ workers) schedule) :
    ∃ n, AllReturned workers
      (Turns.after (Dynamic.step workload args) schedule (init launch memory) n) := by
  have hgraph := validGraph_of_validate hvalid
  refine hfair.ends wellFounded_less wellFounded_sooner
    (fun s w hs _ hw => hs.step hvalid hcount hw) (fun s hs hnot => hs.exists_helps hnot)
    (fun s h b w hs _ hhelps hw => hs.advances workload hgraph hhelps hw)
    (⟨?_, hzero, fun _ _ => rfl⟩ : Started args launch workers _)
  exact sound_init hvalid hready (hgraph.phaseGeneration_lt.trans_le hcount)

end Dynamic

end LightRocm.Graph
