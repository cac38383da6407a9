import LightRocm.Graph.DynamicInvariant

/-!
# Safety of the dynamic scheduler

The invariant of the workers gives each event the condition that the history
asks for. Both hold along every run of a launch whose generations fit the phase
word, and as long as they do in any other.
-/

namespace LightRocm.Graph.Dynamic

variable {workload : Workload} {args : ResidentArgs} {launch : State} {memory : Memory}
  {s : Sys Pc} {w : ℕ}

/-- Only the end of a phase adds to the phases that have been left. -/
theorem left_turn (workload : Workload) (args : ResidentArgs) (w : ℕ) (d : Device) (pc : Pc) :
    (turn workload args w d pc).1.left = d.left ∨
    ∃ c p, pc = .settle c (.next p) ∧
      (turn workload args w d pc).1.left = d.left ++ [d.program] := by
  cases pc with
  | begin =>
    left
    simp only [turn]
    split <;> rfl
  | scan snapshot offset =>
    left
    simp only [turn]
    split
    · split
      · unfold claim
        dsimp only
        split <;> rfl
      · rfl
    · rfl
  | execute c a =>
    left
    simp only [turn]
    split <;> rfl
  | settle c outcome =>
    cases outcome with
    | next p => exact .inr ⟨c, p, rfl, rfl⟩
    | complete | maxSteps | exhausted => exact .inl rfl
  | _ => exact .inl rfl

/-- The generations stay below the number of `MaskState`s. -/
theorem Inv.room_step (h : Inv args launch s) :
    launch.base + (Dynamic.step workload args w s).device.left.length < args.phaseStateCount := by
  have hroom := h.words.room
  rcases left_turn workload args w s.device (s.pcs w) with
    hleft | ⟨c, p, hpc, hleft⟩
  · change launch.base + (turn workload args w s.device (s.pcs w)).1.left.length < _
    rwa [hleft]
  · change launch.base + (turn workload args w s.device (s.pcs w)).1.left.length < _
    have hfit := h.fits w
    rw [hpc] at hfit
    have hlt := (verdict_eq_next hfit.2.symm).1
    rw [h.words.generation] at hlt
    rw [hleft, List.length_append, List.length_singleton]
    omega

/-- The counted tasks of the phase have been executed. -/
theorem executed_of_allCounted {d : Device} (h : d.AllCounted args) : d.Executed args := by
  intro t ht
  have hcounted := h t ht
  cases hmark : d.board t with
  | counted w => exact List.cons_ne_nil _ _
  | _ =>
    rw [hmark] at hcounted
    cases hcounted

/-- Every turn keeps the history. -/
theorem Inv.history (h : Inv args launch s) (hgraph : ValidGraph args launch)
    (hhistory : History args s.device) : History args (Dynamic.step workload args w s).device := by
  have hfit := h.fits w
  have hmarked : ∀ {t : ℕ} {mark : Mark}, (s.pcs w).mark w = some (t, mark) →
      s.device.board t = mark := fun hmark => h.held.held hmark
  change History args (turn workload args w s.device (s.pcs w)).1
  generalize hpc : s.pcs w = pc at hfit hmarked
  cases pc with
  | begin =>
    simp only [turn]
    split <;> exact hhistory
  | check | loadPhase | loadClaimed | loadClaimedHigh | loadCompleted | loadCompletedHigh
  | reloadPhase | decide | returned => exact hhistory
  | publish status =>
    obtain ⟨-, rfl, hready⟩ := hfit
    refine hhistory.congr rfl rfl rfl ?_ fun _ => ⟨rfl, rfl⟩
    rw [hready]
    exact ⟨fun hended => absurd rfl hended.2, fun hended => absurd rfl hended.1⟩
  | scan snapshot offset =>
    simp only [turn]
    split
    · rename_i hoffset
      split
      · rename_i hoffers
        rcases h.claim workload hgraph hpc hoffset hoffers with
          ⟨t, ht, hboard, hdepends, hclaim⟩ | hclaim
        · rw [hclaim]
          have hmasks : History args (s.device.setMasks (phaseGeneration s.device.state.phase)
              (s.device.masks.orClaimed t)) :=
            hhistory.congr rfl rfl rfl Iff.rfl fun _ => ⟨rfl, rfl⟩
          refine hmasks.take (fun hended => ?_) ht hboard fun i hi =>
            Mark.finisher_of_isCompleted (hdepends i hi)
          have hcounted := h.ended hended t ht
          rw [hboard] at hcounted
          cases hcounted
        · rw [hclaim]
          exact hhistory
      · exact hhistory
    · exact hhistory
  | execute c a =>
    have hopen : ¬s.device.state.status.Ended := fun hended => hended.2 hfit.1
    simp only [turn]
    split
    · exact hhistory.finish hopen (hmarked rfl)
    · exact hhistory.congr rfl rfl rfl Iff.rfl fun _ => ⟨rfl, rfl⟩
  | complete c =>
    have hboard : s.device.board c.task = .executed w := hmarked rfl
    exact hhistory.remark (by rw [hboard]; rfl) (by rw [hboard]; rfl) _ _
  | count c =>
    have hboard : s.device.board c.task = .completed w := hmarked rfl
    exact hhistory.remark (by rw [hboard]; rfl) (by rw [hboard]; rfl) _ _
  | advance c => exact hhistory.congr rfl rfl rfl Iff.rfl fun _ => ⟨rfl, rfl⟩
  | settle c outcome =>
    obtain ⟨⟨hrunning, -, hall⟩, -⟩ := hfit
    exact hhistory.settle (fun hended => hended.2 hrunning) (executed_of_allCounted hall) _ _

/-- The invariant of a launch and of its history. -/
structure Sound (args : ResidentArgs) (launch : State) (s : Sys Pc) : Prop where
  inv : Inv args launch s
  history : History args s.device

/-- A launch that the host has prepared. -/
theorem sound_init (hvalid : validatePrograms workload args launch = true)
    (hready : launch.status = .ready) (hmax : launch.base < kMaximumPhaseStates) :
    Sound args launch (init launch memory) := by
  have hgraph := validGraph_of_validate hvalid
  have hzero : ∀ i, (0 : ℕ).testBit i = false := Nat.zero_testBit
  have hwords : Words args launch.base (init launch memory).device := by
    refine ⟨hgraph.phaseGeneration_lt, hmax, rfl, ?_, fun _ => rfl, ?_, fun _ => by norm_num [init],
      ?_, ?_, ?_⟩
    · intro p hp
      obtain rfl : p = phaseProgram launch.phase := by
        simpa [init, Device.entered, Device.program] using hp
      exact hgraph.phaseProgram_lt
    · intro k p t hk
      simp [init] at hk
    · intro t _
      simp [init, Device.masks, MaskState.claimed, MaskState.claimedWord, hzero]
    · intro t _
      simp [init, Device.masks, MaskState.completed, MaskState.completedWord, hzero,
        Mark.isCompleted]
    · simp [init, Device.masks, Mark.isCounted]
  refine ⟨⟨hwords, Held.clear fun _ => rfl, fun w _ => ⟨rfl, hready⟩, by rintro w _ ⟨⟩, fun hrunning => ?_,
    fun _ _ => rfl, fun hended => absurd hready hended.1⟩, ?_⟩
  · have hrunning' : launch.status = .running := hrunning
    rw [hready] at hrunning'
    cases hrunning'
  · exact History.init rfl rfl (fun _ => rfl) fun hended => absurd hready hended.1

/-- Every turn keeps a launch sound, as long as the phase word tells the generations apart. -/
theorem Sound.step (h : Sound args launch s) (hvalid : validatePrograms workload args launch = true)
    (hroom : launch.base + (Dynamic.step workload args w s).device.left.length <
      kMaximumPhaseStates) : Sound args launch (Dynamic.step workload args w s) :=
  ⟨h.inv.step hvalid hroom, h.inv.history (validGraph_of_validate hvalid) h.history⟩

/-- Every state of a launch with as many phases as the host allows is sound. -/
theorem sound_of_reaches (hvalid : validatePrograms workload args launch = true)
    (hready : launch.status = .ready) (hcount : args.phaseStateCount ≤ kMaximumPhaseStates)
    {active : ℕ → Prop} (hreach : Turns.Reaches (step workload args) active (init launch memory) s) :
    Sound args launch s := by
  have hbase := (validGraph_of_validate hvalid).phaseGeneration_lt
  refine hreach.invariant (fun s w hs _ => hs.step hvalid ?_)
    (sound_init hvalid hready (hbase.trans_le hcount))
  exact hs.inv.room_step.trans_le hcount

end LightRocm.Graph.Dynamic
