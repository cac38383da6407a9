import LightRocm.Graph.Compiled
import LightRocm.Lib.Barrier

/-!
# The invariant of the compiled scheduler

One barrier is closed at a time. `Fits` says where each worker stands with it,
`Words` what the words of the generations say about it, and `Gathering` that the
counter agrees with the workers. Every turn keeps the invariant as long as the
phase word tells the generations apart.
-/

namespace LightRocm.Graph.Compiled

open Barrier

/-- Where a worker stands with the closed barrier. -/
def Pc.role (d : Device) : Pc → Role
  | .spin place => if place.barrier = d.gate then .waiting else .away
  | .reset _ => .resetting
  | .advance _ | .decide _ _ | .settle _ _ | .release _ => .leading
  | _ => .away

/-- A place is one of a phase that has been entered. -/
structure Place.Valid (args : ResidentArgs) (base : ℕ) (d : Device) (place : Place) : Prop where
  generation : place.generation = base + place.number
  program : d.entered[place.number]? = some place.program
  stage_lt : place.stage < args.stageCount place.program

/-- A worker of the running phase has not passed the closed barrier. -/
structure Place.At (args : ResidentArgs) (base : ℕ) (d : Device) (place : Place) : Prop where
  valid : place.Valid args base d
  number : place.number = d.left.length
  gate : d.gate = place.barrier
  running : d.state.status = .running

/-- What worker `w` knows when it is at a point of its loop. -/
def Fits (args : ResidentArgs) (launch : State) (d : Device) (w : ℕ) : Pc → Prop
  | .begin => (w = 0 → d.state = launch ∧ launch.status = .ready) ∧ d.gate = (0, 0) ∧
      ¬d.state.status.Ended
  | .publish status => w = 0 ∧ status = .running ∧ d.state.status = .ready ∧ d.gate = (0, 0)
  | .check => (d.state.status = .running ∧ d.gate = (d.left.length, 0)) ∨
      (d.state.status.Ended ∧ d.gate = (d.left.length + 1, 0))
  | .loadPhase => d.state.status = .running ∧ d.gate = (d.left.length, 0)
  | .work place taskIndex => place.At args launch.base d ∧
      (w < place.active args launch.workerCount →
        taskIndex % place.active args launch.workerCount = w)
  | .execute place taskIndex _ => place.At args launch.base d ∧
      w < place.active args launch.workerCount ∧
      taskIndex % place.active args launch.workerCount = w ∧
      taskIndex < (place.descriptor args).taskCount
  | .arrive place | .reset place => place.At args launch.base d
  | .advance place => place.At args launch.base d ∧ place.Last args
  | .decide place step => (place.At args launch.base d ∧ place.Last args) ∧ step = d.state.step
  | .settle place outcome => (place.At args launch.base d ∧ place.Last args) ∧
      outcome = verdict args (args.program place.program) place.generation d.state.step d
  | .release place => place.Valid args launch.base d ∧ d.gate = place.barrier ∧
      (¬place.Last args ∧ d.state.status = .running ∧ place.number = d.left.length ∨
      place.Last args ∧ d.state.status = .running ∧ place.number + 1 = d.left.length ∨
      place.Last args ∧ d.state.status.Ended ∧ place.number = d.left.length)
  | .spin place => place.Valid args launch.base d ∧ d.state.status ≠ .ready ∧
      (d.gate = place.barrier ∨ d.gate = place.after args)
  | .returned status => status = d.state.status ∧ d.state.status.Ended ∧
      d.gate = (d.left.length + 1, 0)

/-- The words of the generations. -/
structure Words (args : ResidentArgs) (launch : State) (d : Device) : Prop where
  room : launch.base + d.left.length < args.phaseStateCount
  lt_max : launch.base + d.left.length < kMaximumPhaseStates
  generation : phaseGeneration d.state.phase = launch.base + d.left.length
  programs : ∀ {p}, p ∈ d.entered → p < args.programs.length
  workerCount : d.state.workerCount = launch.workerCount
  /-- The word of the closed barrier. -/
  closed : (d.phaseStates (launch.base + d.gate.1)).completedMask = d.gate.2
  /-- No later generation has been used. -/
  fresh : ∀ {g}, launch.base + d.gate.1 < g → d.phaseStates g = {}
  /-- The barriers of earlier phases are open. -/
  past : ∀ {k p}, k < d.gate.1 → d.entered[k]? = some p →
    (d.phaseStates (launch.base + k)).completedMask = args.stageCount p

/-- Where the closed barrier stands in the launch. -/
inductive Position (args : ResidentArgs) (workers : ℕ) (d : Device) (pcs : ℕ → Pc) : Prop
  | ready (hready : d.state.status = .ready) (hgate : d.gate = (0, 0)) (hleft : d.left = [])
  | running (hrunning : d.state.status = .running) (hgate : d.gate.1 = d.left.length)
      (hstage : d.gate.2 < args.stageCount d.program)
  /-- The phase is over, and the last worker is about to open the barrier. -/
  | opening {w : ℕ} {place : Place} (hw : w < workers) (hpc : pcs w = .release place)
      (hstatus : d.state.status ≠ .ready)
  | ended (hended : d.state.status.Ended) (hgate : d.gate = (d.left.length + 1, 0))

/-- The invariant of the scheduler. -/
structure Inv (args : ResidentArgs) (launch : State) (s : Sys Pc) : Prop where
  words : Words args launch s.device
  position : Position args launch.workerCount s.device s.pcs
  gathering : Gathering launch.workerCount (fun w => (s.pcs w).role s.device)
    (s.device.phaseStates (launch.base + s.device.gate.1)).claimedMask
  fits : ∀ w < launch.workerCount, Fits args launch s.device w (s.pcs w)

variable {workload : Workload} {args : ResidentArgs} {launch : State} {memory : Memory}
  {s : Sys Pc} {d d' : Device} {w v : ℕ} {pc : Pc} {place : Place}

/-! ## Places -/

variable {base : ℕ}

/-- A place stays valid while phases are added. -/
theorem Place.Valid.mono (h : place.Valid args base d)
    (hentered : ∀ {k p : ℕ}, d.entered[k]? = some p → d'.entered[k]? = some p) :
    place.Valid args base d' :=
  ⟨h.generation, hentered h.program, h.stage_lt⟩

/-- The program of a place of the current phase. -/
theorem Place.At.program_eq (h : place.At args base d) : place.program = d.program := by
  have hprogram := h.valid.program
  rw [h.number, d.entered_last] at hprogram
  exact (Option.some.inj hprogram).symm

/-- Whether a worker has passed the closed barrier depends on the control words only. -/
theorem Place.At.frame (h : place.At args base d) (hentered : d'.entered = d.entered)
    (hleft : d'.left = d.left) (hgate : d'.gate = d.gate)
    (hstatus : d'.state.status = d.state.status) : place.At args base d' :=
  ⟨h.valid.mono fun hk => by rwa [hentered], by rw [hleft]; exact h.number, hgate.trans h.gate,
    hstatus.trans h.running⟩

/-- A stage that is not the last has a next one. -/
theorem Place.Valid.next_lt (h : place.Valid args base d) (hlast : ¬place.Last args) :
    place.stage + 1 < args.stageCount place.program := by
  have hlt := h.stage_lt
  have hne : place.stage + 1 ≠ args.stageCount place.program := hlast
  omega

/-- The barrier of a place is not the one after it. -/
theorem Place.barrier_ne_after (place : Place) (args : ResidentArgs) :
    place.barrier ≠ place.after args := by
  unfold barrier after
  split <;> simp

/-! ## What does not change -/

/-- What a worker knows depends on the control words only, but for the worker that ends the
phase. -/
theorem Fits.frame (h : Fits args launch d v pc) (hphase : d'.state.phase = d.state.phase)
    (hstatus : d'.state.status = d.state.status) (hleft : d'.left = d.left)
    (hgate : d'.gate = d.gate) (hbegin : d.state.status = .ready → d'.state = d.state)
    (hcalm : d' = d ∨ pc.role d ≠ .leading) : Fits args launch d' v pc := by
  have hentered : d'.entered = d.entered := by
    rw [Device.entered, hleft, Device.program, hphase, Device.entered, Device.program]
  have hvalid : ∀ {place : Place}, place.Valid args launch.base d →
      place.Valid args launch.base d' := fun hplace =>
    hplace.mono fun hk => by rwa [hentered]
  have hat : ∀ {place : Place}, place.At args launch.base d → place.At args launch.base d' :=
    fun hplace => hplace.frame hentered hleft hgate hstatus
  rcases hcalm with rfl | hcalm
  · exact h
  cases pc with
  | begin =>
    obtain ⟨hzero, hfirst, hended⟩ := h
    refine ⟨fun hv => ?_, hgate.trans hfirst, by rwa [hstatus]⟩
    obtain ⟨hstate, hready⟩ := hzero hv
    exact ⟨(hbegin (by rw [hstate, hready])).trans hstate, hready⟩
  | publish | check | loadPhase | returned =>
    simp only [Fits, hstatus, hgate, hleft] at h ⊢
    exact h
  | work | execute => exact ⟨hat h.1, h.2⟩
  | arrive | reset => exact hat h
  | advance | decide | settle | release => exact absurd rfl hcalm
  | spin =>
    refine ⟨hvalid h.1, by rw [hstatus]; exact h.2.1, ?_⟩
    rw [hgate]
    exact h.2.2

/-- The words of the generations depend on the control words and the barriers only. -/
theorem Words.frame (h : Words args launch d) (hphase : d'.state.phase = d.state.phase)
    (hworkers : d'.state.workerCount = d.state.workerCount) (hleft : d'.left = d.left)
    (hgate : d'.gate = d.gate) {count : ℕ}
    (hstates : d'.phaseStates = Function.update d.phaseStates (launch.base + d.gate.1)
      { d.phaseStates (launch.base + d.gate.1) with claimedMask := count }) :
    Words args launch d' := by
  have hentered : d'.entered = d.entered := by
    rw [Device.entered, hleft, Device.program, hphase, Device.entered, Device.program]
  refine ⟨?_, ?_, ?_, ?_, hworkers.trans h.workerCount, ?_, fun {g} hg => ?_, fun {k p} hk hp => ?_⟩
  · rw [hleft]
    exact h.room
  · rw [hleft]
    exact h.lt_max
  · rw [hphase, hleft]
    exact h.generation
  · rw [hentered]
    exact h.programs
  · rw [hgate, hstates, Function.update_self]
    exact h.closed
  · rw [hgate] at hg
    rw [hstates, Function.update_of_ne hg.ne']
    exact h.fresh hg
  · rw [hgate] at hk
    rw [hentered] at hp
    rw [hstates, Function.update_of_ne (by omega)]
    exact h.past hk hp

/-- A turn that changes no control word: the worker gets a new role, and the counter of the
closed barrier may change. -/
theorem Inv.keep (h : Inv args launch s) (hw : w < launch.workerCount)
    (hphase : d.state.phase = s.device.state.phase)
    (hstatus : d.state.status = s.device.state.status)
    (hworkers : d.state.workerCount = s.device.state.workerCount)
    (hleft : d.left = s.device.left) (hgate : d.gate = s.device.gate) {count : ℕ}
    (hstates : d.phaseStates =
      Function.update s.device.phaseStates (launch.base + s.device.gate.1)
        { s.device.phaseStates (launch.base + s.device.gate.1) with claimedMask := count })
    (hbegin : s.device.state.status = .ready → d.state = s.device.state)
    (hcalm : d = s.device ∨ (s.pcs w).role s.device ≠ .waiting)
    (hrelease : ∀ place, s.pcs w ≠ .release place)
    (hgather : Gathering launch.workerCount
      (fun v => (Function.update s.pcs w pc v).role s.device) count)
    (hfit : Fits args launch d w pc) : Inv args launch (s.turn w d pc) where
  words := h.words.frame hphase hworkers hleft hgate hstates
  position := by
    have hprogram : d.program = s.device.program := by rw [Device.program, hphase, Device.program]
    cases h.position with
    | ready hready hfirst hempty =>
      exact .ready (hstatus.trans hready) (hgate.trans hfirst) (hleft.trans hempty)
    | running hrunning hnumber hstage =>
      refine .running (hstatus.trans hrunning) ?_ ?_
      · exact (congrArg Prod.fst hgate).trans (hnumber.trans (congrArg List.length hleft).symm)
      · change d.gate.2 < args.stageCount d.program
        rwa [hgate, hprogram]
    | @opening v place hv hpc hnot =>
      have hne : v ≠ w := by
        rintro rfl
        exact hrelease place hpc
      have hpc' : (s.turn w d pc).pcs v = .release place :=
        (Function.update_of_ne hne _ _).trans hpc
      exact .opening hv hpc' (by rw [show (s.turn w d pc).device = d from rfl, hstatus]; exact hnot)
    | ended hended hnumber =>
      refine .ended ?_ ?_
      · rwa [show (s.turn w d pc).device = d from rfl, hstatus]
      · change d.gate = (d.left.length + 1, 0)
        rw [hgate, hleft]
        exact hnumber
  gathering := by
    have hcount : ((s.turn w d pc).device.phaseStates
        (launch.base + (s.turn w d pc).device.gate.1)).claimedMask = count := by
      rw [show (s.turn w d pc).device = d from rfl, hgate, hstates, Function.update_self]
    rw [hcount]
    refine hgather.congr fun v _ => ?_
    change (Function.update s.pcs w pc v).role d = _
    cases Function.update s.pcs w pc v with
    | spin place => simp only [Pc.role, hgate]
    | _ => rfl
  fits v hv := by
    by_cases heq : v = w
    · subst heq
      rw [Sys.turn_pcs_self]
      exact hfit
    · change Fits args launch d v (Function.update s.pcs w pc v)
      rw [Function.update_of_ne heq]
      refine (h.fits v hv).frame hphase hstatus hleft hgate hbegin ?_
      -- While another worker leads, this one waits and its turn changes nothing.
      rcases hcalm with rfl | hcalm
      · exact .inl rfl
      · exact .inr fun hlead => hcalm ((h.gathering.leads v hv hlead).2 w hw (Ne.symm heq))

/-- A turn of a worker that changes neither the control words nor the barriers, and after which
the worker stands where it stood with the closed barrier. -/
theorem Inv.pass (h : Inv args launch s) (hw : w < launch.workerCount)
    (hphase : d.state.phase = s.device.state.phase)
    (hstatus : d.state.status = s.device.state.status)
    (hworkers : d.state.workerCount = s.device.state.workerCount)
    (hleft : d.left = s.device.left) (hgate : d.gate = s.device.gate)
    (hstates : d.phaseStates = s.device.phaseStates)
    (hbegin : s.device.state.status = .ready → d.state = s.device.state)
    (hcalm : d = s.device ∨ (s.pcs w).role s.device ≠ .waiting)
    (hrelease : ∀ place, s.pcs w ≠ .release place)
    (hrole : pc.role s.device = (s.pcs w).role s.device)
    (hfit : Fits args launch d w pc) : Inv args launch (s.turn w d pc) := by
  refine h.keep hw hphase hstatus hworkers hleft hgate ?_ hbegin hcalm hrelease
    (h.gathering.congr fun v _ => ?_) hfit
  · rw [Function.update_eq_self]
    exact hstates
  · by_cases heq : v = w
    · subst heq
      rw [Function.update_self, hrole]
    · rw [Function.update_of_ne heq]

/-- A turn of a worker that changes nothing but its own place. -/
theorem Inv.stay (h : Inv args launch s) (hw : w < launch.workerCount)
    (hrelease : ∀ place, s.pcs w ≠ .release place)
    (hrole : pc.role s.device = (s.pcs w).role s.device) (hfit : Fits args launch s.device w pc) :
    Inv args launch (s.turn w s.device pc) :=
  h.pass hw rfl rfl rfl rfl rfl rfl (fun _ => rfl) (.inl rfl) hrelease hrole hfit

/-- While a worker is away from the closed barrier, nobody is about to open it. -/
theorem Inv.not_release (h : Inv args launch s) (hw : w < launch.workerCount)
    (haway : (s.pcs w).role s.device = .away) (hv : v < launch.workerCount) (place : Place) :
    s.pcs v ≠ .release place := by
  intro hpc
  rcases h.gathering.idle hw haway v hv with hrole | hrole <;> rw [hpc] at hrole <;> cases hrole

/-! ## The turns -/

/-- Before the status is published, every worker is at its beginning. -/
theorem Inv.begin_or_publish (h : Inv args launch s) (hready : s.device.state.status = .ready)
    (hw : w < launch.workerCount) :
    s.pcs w = .begin ∨ w = 0 ∧ ∃ status, s.pcs w = .publish status := by
  have hfit := h.fits w hw
  have hnot : ¬s.device.state.status.Ended := fun hended => hended.1 hready
  have hrunning : s.device.state.status ≠ .running := by rw [hready]; exact nofun
  cases hpc : s.pcs w with
  | begin => exact .inl rfl
  | publish status => rw [hpc] at hfit; exact .inr ⟨hfit.1, status, rfl⟩
  | check =>
    rw [hpc] at hfit
    rcases hfit with hfit | hfit
    · exact absurd hfit.1 hrunning
    · exact absurd hfit.1 hnot
  | loadPhase => rw [hpc] at hfit; exact absurd hfit.1 hrunning
  | work | execute | advance => rw [hpc] at hfit; exact absurd hfit.1.running hrunning
  | arrive | reset => rw [hpc] at hfit; exact absurd hfit.running hrunning
  | decide | settle => rw [hpc] at hfit; exact absurd hfit.1.1.running hrunning
  | release =>
    rw [hpc] at hfit
    rcases hfit.2.2 with hfit | hfit | hfit
    · exact absurd hfit.2.1 hrunning
    · exact absurd hfit.2.1 hrunning
    · exact absurd hfit.2.1 hnot
  | spin => rw [hpc] at hfit; exact absurd hready hfit.2.1
  | returned => rw [hpc] at hfit; exact absurd hfit.2.1 hnot

/-- Worker 0 publishes the result of the validation. -/
theorem Inv.publish (h : Inv args launch s) (hw : w < launch.workerCount) {status : Status}
    (hvalid : ValidStages args s.device.program) (hpc : s.pcs w = .publish status) :
    Inv args launch (s.turn w (s.device.publish status) .check) := by
  have hfit := h.fits w hw
  rw [hpc] at hfit
  obtain ⟨rfl, rfl, hready, hgate⟩ := hfit
  have hleft : s.device.left = [] := by
    cases h.position with
    | ready _ _ hleft => exact hleft
    | running hrunning => rw [hready] at hrunning; cases hrunning
    | opening _ _ hnot => exact absurd hready hnot
    | ended hended => exact absurd hready hended.1
  refine ⟨⟨h.words.room, h.words.lt_max, h.words.generation, h.words.programs,
    h.words.workerCount, h.words.closed, h.words.fresh, h.words.past⟩, ?_, ?_, fun v hv => ?_⟩
  · refine .running rfl ?_ ?_
    · change s.device.gate.1 = s.device.left.length
      rw [hgate, hleft]
      rfl
    · change s.device.gate.2 < args.stageCount s.device.program
      rw [hgate]
      exact hvalid.stageCount_pos
  · refine h.gathering.congr fun v hv => ?_
    by_cases heq : v = 0
    · subst heq
      rw [Sys.turn_pcs_self, hpc]
      rfl
    · change (Function.update s.pcs 0 .check v).role s.device = _
      rw [Function.update_of_ne heq]
  · by_cases heq : v = 0
    · subst heq
      rw [Sys.turn_pcs_self]
      refine .inl ⟨rfl, ?_⟩
      change s.device.gate = (s.device.left.length, 0)
      rw [hgate, hleft]
      rfl
    · rcases h.begin_or_publish hready hv with hbegin | ⟨hzero, -⟩
      · change Fits args launch _ v (Function.update s.pcs 0 .check v)
        rw [Function.update_of_ne heq, hbegin]
        exact ⟨fun hzero => absurd hzero heq, hgate, fun hended => hended.2 rfl⟩
      · exact absurd hzero heq

/-- The word of a barrier that a worker waits for. -/
theorem Inv.completedMask (h : Inv args launch s) (hw : w < launch.workerCount)
    (hpc : s.pcs w = .spin place) :
    (s.device.phaseStates place.generation).completedMask =
      if s.device.gate = place.barrier then place.stage else place.stage + 1 := by
  have hfit := h.fits w hw
  rw [hpc] at hfit
  obtain ⟨hvalid, -, hgate⟩ := hfit
  have hclosed := h.words.closed
  rw [hvalid.generation]
  split
  · rename_i hsame
    rw [hsame] at hclosed
    exact hclosed
  · rename_i hne
    have hafter := hgate.resolve_left hne
    by_cases hlast : place.Last args
    · rw [Place.after, if_pos hlast] at hafter
      rw [h.words.past (by rw [hafter]; exact Nat.lt_succ_self _) hvalid.program]
      exact hlast.symm
    · rw [Place.after, if_neg hlast] at hafter
      rw [hafter] at hclosed
      exact hclosed

/-- A worker that waits for a barrier goes on once it is open. -/
theorem Inv.spin (h : Inv args launch s) (hw : w < launch.workerCount)
    (hpc : s.pcs w = .spin place) :
    Inv args launch (Compiled.step workload args w s) := by
  have hfit := h.fits w hw
  have hword := h.completedMask hw hpc
  have hrelease : ∀ place, s.pcs w ≠ .release place := by
    rw [hpc]
    exact nofun
  unfold Compiled.step
  rw [hpc] at hfit ⊢
  obtain ⟨hvalid, hnot, hgate⟩ := hfit
  simp only [turn, hword]
  by_cases hsame : s.device.gate = place.barrier
  · rw [if_pos hsame, if_pos (Nat.lt_succ_self _)]
    exact h.stay hw hrelease (by rw [hpc])
      ⟨hvalid, hnot, hgate⟩
  have hafter := hgate.resolve_left hsame
  have haway : (s.pcs w).role s.device = .away := by
    rw [hpc, Pc.role, if_neg fun heq => hsame heq.symm]
  rw [if_neg hsame, if_neg (Nat.lt_irrefl _)]
  split
  · rename_i hnext
    have hlast : ¬place.Last args := fun hlast => (Nat.ne_of_lt hnext) hlast
    rw [Place.after, if_neg hlast] at hafter
    refine h.stay hw hrelease
      (by rw [haway]; rfl) ?_
    have hat : place.next.At args launch.base s.device := by
      cases h.position with
      | ready hready => exact absurd hready hnot
      | running hrunning hnumber =>
        refine ⟨⟨hvalid.generation, hvalid.program, hnext⟩, ?_, hafter, hrunning⟩
        rw [← hnumber, hafter]
        rfl
      | opening hv hpc' => exact absurd hpc' (h.not_release hw haway hv _)
      | ended _ hend =>
        rw [hafter] at hend
        cases (Prod.mk.inj hend).2
    exact ⟨hat, fun hactive => Nat.mod_eq_of_lt hactive⟩
  · rename_i hnext
    have hlast : place.Last args := by
      by_contra hlast
      exact hnext (hvalid.next_lt hlast)
    rw [Place.after, if_pos hlast] at hafter
    refine h.stay hw hrelease
      (by rw [haway]; rfl) ?_
    cases h.position with
    | ready hready => exact absurd hready hnot
    | running hrunning hnumber =>
      refine .inl ⟨hrunning, ?_⟩
      rw [← hnumber, hafter]
    | opening hv hpc' => exact absurd hpc' (h.not_release hw haway hv _)
    | ended hended hend => exact .inr ⟨hended, hend⟩

/-- The others keep their roles in a turn that keeps the closed barrier. -/
theorem role_update_of_ne (d : Device) (pcs : ℕ → Pc) (pc : Pc) (hne : v ≠ w) :
    (Function.update pcs w pc v).role d = (pcs v).role d := by
  rw [Function.update_of_ne hne]

/-- A worker arrives at the closed barrier. -/
theorem Inv.arrive (h : Inv args launch s) (hw : w < launch.workerCount)
    (hmany : launch.workerCount ≤ kMaximumResidentWorkers) (hpc : s.pcs w = .arrive place) :
    Inv args launch (Compiled.step workload args w s) := by
  have hat := h.fits w hw
  have haway : (s.pcs w).role s.device = .away := by rw [hpc]; rfl
  have hgeneration : place.generation = launch.base + s.device.gate.1 := by
    rw [hpc] at hat
    rw [hat.valid.generation, hat.gate]
    rfl
  obtain ⟨hcount, hlt⟩ := h.gathering.waits (h.gathering.idle hw haway)
  have hmod : ((s.device.phaseStates place.generation).claimedMask + 1) % 2 ^ 32 =
      (s.device.phaseStates (launch.base + s.device.gate.1)).claimedMask + 1 := by
    have hle : launch.workerCount ≤ 32 := hmany
    rw [hgeneration]
    exact Nat.mod_eq_of_lt (by omega)
  have hrelease : ∀ place, s.pcs w ≠ .release place := by
    rw [hpc]
    exact nofun
  unfold Compiled.step
  rw [hpc] at hat ⊢
  simp only [turn]
  have hstates : (count w place s.device).phaseStates =
      Function.update s.device.phaseStates (launch.base + s.device.gate.1)
        { s.device.phaseStates (launch.base + s.device.gate.1) with
          claimedMask := (s.device.phaseStates (launch.base + s.device.gate.1)).claimedMask + 1 } := by
    rw [← hmod, ← hgeneration]
    rfl
  have hat' : place.At args launch.base (count w place s.device) :=
    Place.At.frame hat rfl rfl rfl rfl
  rw [hmod, h.words.workerCount]
  split
  · rename_i hfull
    refine h.keep hw rfl rfl rfl rfl rfl hstates (fun _ => rfl) (.inr (by rw [haway]; exact nofun))
      hrelease (h.gathering.arriveLast hw haway hfull ?_ fun v _ hne => ?_) hat'
    · rw [Function.update_self]
      rfl
    · exact role_update_of_ne _ _ _ hne
  · rename_i hfew
    refine h.keep hw rfl rfl rfl rfl rfl hstates (fun _ => rfl) (.inr (by rw [haway]; exact nofun))
      hrelease (h.gathering.arrive hw haway (by omega) ?_ fun v _ hne => ?_)
      ⟨hat'.valid, by rw [hat'.running]; exact nofun, .inl hat'.gate⟩
    · rw [Function.update_self, Pc.role, if_pos hat.gate.symm]
    · exact role_update_of_ne _ _ _ hne

/-- The last worker clears the counter. -/
theorem Inv.reset (h : Inv args launch s) (hw : w < launch.workerCount)
    (hpc : s.pcs w = .reset place) : Inv args launch (Compiled.step workload args w s) := by
  have hat := h.fits w hw
  have hresets : (s.pcs w).role s.device = .resetting := by rw [hpc]; rfl
  have hrelease : ∀ place, s.pcs w ≠ .release place := by
    rw [hpc]
    exact (by simp)
  unfold Compiled.step
  rw [hpc] at hat ⊢
  have hstates : (clear place s.device).phaseStates =
      Function.update s.device.phaseStates (launch.base + s.device.gate.1)
        { s.device.phaseStates (launch.base + s.device.gate.1) with claimedMask := 0 } := by
    have hgeneration : place.generation = launch.base + s.device.gate.1 := by
      rw [hat.valid.generation, hat.gate]
      rfl
    simp only [clear, Device.setMasks, hgeneration]
  have hat' : place.At args launch.base (clear place s.device) :=
    Place.At.frame hat rfl rfl rfl rfl
  have hgather : ∀ pc : Pc, pc.role s.device = .leading → Gathering launch.workerCount
      (fun v => (Function.update s.pcs w pc v).role s.device) 0 := by
    intro pc hpc'
    refine h.gathering.reset hw hresets ?_ fun v _ hne => role_update_of_ne _ _ _ hne
    rw [Function.update_self, hpc']
  simp only [turn]
  split
  · rename_i hlast
    exact h.keep hw rfl rfl rfl rfl rfl hstates (fun _ => rfl)
      (.inr (by rw [hresets]; exact (by rintro ⟨⟩))) hrelease (hgather _ rfl) ⟨hat', hlast⟩
  · rename_i hlast
    exact h.keep hw rfl rfl rfl rfl rfl hstates (fun _ => rfl)
      (.inr (by rw [hresets]; exact (by rintro ⟨⟩))) hrelease (hgather _ rfl)
      ⟨hat'.valid, hat'.gate, .inl ⟨hlast, hat'.running, hat'.number⟩⟩

/-- While a worker leads, the others wait at the closed barrier. -/
theorem Inv.waiting (h : Inv args launch s) (hw : w < launch.workerCount)
    (hleads : (s.pcs w).role s.device = .leading) (hv : v < launch.workerCount) (hne : v ≠ w) :
    ∃ place, s.pcs v = .spin place ∧ place.Valid args launch.base s.device ∧
      s.device.gate = place.barrier := by
  have hrole := (h.gathering.leads w hw hleads).2 v hv hne
  have hfit := h.fits v hv
  cases hpc : s.pcs v with
  | spin place =>
    rw [hpc] at hfit
    refine ⟨place, rfl, hfit.1, ?_⟩
    by_contra hgate
    rw [hpc, Pc.role, if_neg fun heq => hgate heq.symm] at hrole
    cases hrole
  | _ =>
    rw [hpc] at hrole
    cases hrole

/-- The end of a phase: the others wait, and the worker will open the barrier. -/
theorem Inv.close (h : Inv args launch s) (hw : w < launch.workerCount)
    (hleads : (s.pcs w).role s.device = .leading) (hwords : Words args launch d)
    (hgate : d.gate = s.device.gate) (hstates : d.phaseStates = s.device.phaseStates)
    (hstatus : d.state.status ≠ .ready)
    (hentered : ∀ {k p : ℕ}, s.device.entered[k]? = some p → d.entered[k]? = some p)
    (hfit : Fits args launch d w (.release place)) :
    Inv args launch (s.turn w d (.release place)) where
  words := hwords
  position := .opening hw (Sys.turn_pcs_self ..) hstatus
  gathering := by
    change Gathering _ _ (d.phaseStates (launch.base + d.gate.1)).claimedMask
    rw [hgate, hstates]
    refine h.gathering.congr fun v hv => ?_
    by_cases heq : v = w
    · subst heq
      rw [Sys.turn_pcs_self, hleads]
      rfl
    · obtain ⟨place', hpc', -, hgate'⟩ := h.waiting hw hleads hv heq
      change (Function.update s.pcs w (.release place) v).role d = _
      rw [Function.update_of_ne heq, hpc', Pc.role, Pc.role, hgate]
  fits v hv := by
    by_cases heq : v = w
    · subst heq
      rw [Sys.turn_pcs_self]
      exact hfit
    · obtain ⟨place', hpc', hvalid', hgate'⟩ := h.waiting hw hleads hv heq
      change Fits args launch d v (Function.update s.pcs w (.release place) v)
      rw [Function.update_of_ne heq, hpc']
      exact ⟨hvalid'.mono hentered, hstatus, .inl (hgate.trans hgate')⟩

/-- The last worker publishes how the run goes on. -/
theorem Inv.settle (h : Inv args launch s) (hw : w < launch.workerCount) {outcome : Verdict}
    (hgraph : ValidGraph args launch) (hpc : s.pcs w = .settle place outcome)
    (hroom : launch.base + (Compiled.step workload args w s).device.left.length <
      kMaximumPhaseStates) :
    Inv args launch (Compiled.step workload args w s) := by
  have hfit := h.fits w hw
  have hleads : (s.pcs w).role s.device = .leading := by rw [hpc]; rfl
  unfold Compiled.step at hroom ⊢
  rw [hpc] at hfit hroom ⊢
  obtain ⟨⟨hat, hlast⟩, houtcome⟩ := hfit
  have hgeneration : place.generation = launch.base + s.device.left.length := by
    rw [hat.valid.generation, hat.number]
  have hstop : ∀ (status : Status) (errorCode : ℕ), status.Ended →
      Inv args launch (s.turn w (s.device.stop w status errorCode) (.release place)) := by
    intro status errorCode hended
    have hwords := h.words
    refine h.close hw hleads ⟨hwords.room, hwords.lt_max, hwords.generation, hwords.programs,
      hwords.workerCount, hwords.closed, hwords.fresh, hwords.past⟩ rfl rfl hended.1 id ?_
    exact ⟨hat.valid.mono id, hat.gate, .inr (.inr ⟨hlast, hended, hat.number⟩)⟩
  cases outcome with
  | complete => exact hstop .complete _ ⟨(by rintro ⟨⟩), (by rintro ⟨⟩)⟩
  | maxSteps => exact hstop .maxSteps _ ⟨(by rintro ⟨⟩), (by rintro ⟨⟩)⟩
  | exhausted => exact hstop .invalidProgram _ ⟨(by rintro ⟨⟩), (by rintro ⟨⟩)⟩
  | next p =>
    obtain ⟨hlt, hp⟩ := verdict_eq_next houtcome.symm
    have hvalid := hgraph.program (h.words.programs (p := s.device.program)
      (by simp [Device.entered]))
    have hp' : p < args.programs.length := by
      rw [hp, hat.program_eq]
      exact successor_lt hvalid
    have hmany : p < kMaximumPrograms := hp'.trans_le hgraph.programs_le
    have hlength : (s.device.enter w (makePhase (place.generation + 1) p)).left.length =
        s.device.left.length + 1 := by simp [Device.enter]
    have hprogram : (s.device.enter w (makePhase (place.generation + 1) p)).program = p :=
      phaseProgram_makePhase hmany
    have hmax : launch.base + (s.device.left.length + 1) < kMaximumPhaseStates := by
      rw [← hlength]
      exact hroom
    have hentered : ∀ {k q : ℕ}, s.device.entered[k]? = some q →
        (s.device.enter w (makePhase (place.generation + 1) p)).entered[k]? = some q := by
      intro k q hq
      have hk : k < s.device.entered.length := (List.getElem?_eq_some_iff.mp hq).1
      change (s.device.entered ++ [_])[k]? = some q
      rwa [List.getElem?_append_left hk]
    have hwords : Words args launch (s.device.enter w (makePhase (place.generation + 1) p)) := by
      refine ⟨?_, ?_, ?_, fun {q} hq => ?_, h.words.workerCount, h.words.closed, h.words.fresh,
        fun {k q} hk hq => ?_⟩
      · rw [hlength]
        omega
      · rw [hlength]
        exact hmax
      · rw [hlength]
        change phaseGeneration (makePhase (place.generation + 1) p) = _
        rw [phaseGeneration_makePhase hmany, hgeneration, Nat.add_assoc, Nat.mod_eq_of_lt hmax]
      · rw [Device.entered, List.mem_append, List.mem_singleton, hprogram] at hq
        rcases hq with hq | rfl
        · exact h.words.programs hq
        · exact hp'
      · have hk' : k < s.device.entered.length := by
          have hgate : s.device.gate.1 = s.device.left.length := by
            rw [hat.gate]
            exact hat.number
          have hlt' : k < s.device.gate.1 := hk
          simp only [Device.entered, List.length_append, List.length_singleton]
          omega
        have hq' : (s.device.entered ++ [_])[k]? = some q := hq
        rw [List.getElem?_append_left hk'] at hq'
        exact h.words.past hk hq'
    refine h.close hw hleads hwords rfl rfl ?_ hentered ?_
    · change s.device.state.status ≠ .ready
      rw [hat.running]
      exact (by rintro ⟨⟩)
    · refine ⟨hat.valid.mono hentered, hat.gate, .inr (.inl ⟨hlast, hat.running, ?_⟩)⟩
      exact (congrArg (· + 1) hat.number).trans hlength.symm

/-- The words of a barrier that is opened. -/
theorem Place.Valid.phaseStates_opens (h : place.Valid args base d) :
    (opens args w place d).phaseStates (base + place.number) =
      { d.phaseStates (base + place.number) with completedMask := (place.stage + 1) % 2 ^ 32 } := by
  rw [← h.generation]
  exact Function.update_self ..

/-- The words of the other generations. -/
theorem Place.Valid.phaseStates_opens_of_ne {base g : ℕ} (h : place.Valid args base d)
    (hg : g ≠ base + place.number) : (opens args w place d).phaseStates g = d.phaseStates g := by
  rw [← h.generation] at hg
  exact Function.update_of_ne hg _ _

/-- The words after a barrier has been opened. -/
theorem Words.opens (h : Words args launch d) (hsmall : args.stageCount place.program < 2 ^ 32)
    (hvalid : place.Valid args launch.base d) (hgate : d.gate = place.barrier) :
    Words args launch (opens args w place d) := by
  have hnumber : d.gate.1 = place.number := by rw [hgate]; rfl
  have hword : (place.stage + 1) % 2 ^ 32 = place.stage + 1 := by
    have hlt := hvalid.stage_lt
    exact Nat.mod_eq_of_lt (by omega)
  have hself : ((Compiled.opens args w place d).phaseStates
      (launch.base + place.number)).completedMask = place.stage + 1 := by
    rw [hvalid.phaseStates_opens, hword]
  have hother : ∀ {g}, g ≠ launch.base + place.number →
      (Compiled.opens args w place d).phaseStates g = d.phaseStates g :=
    hvalid.phaseStates_opens_of_ne
  refine ⟨h.room, h.lt_max, h.generation, h.programs, h.workerCount, ?_, fun {g} hg => ?_,
    fun {k p} hk hp => ?_⟩
  · rw [show (Compiled.opens args w place d).gate = place.after args from rfl, Place.after]
    by_cases hlast : place.Last args
    · rw [if_pos hlast, hother (by omega), h.fresh (by omega)]
    · rw [if_neg hlast]
      exact hself
  · have hle : place.number ≤ (place.after args).1 := by
      unfold Place.after
      split
      · exact Nat.le_succ _
      · exact le_rfl
    have hg' : launch.base + (place.after args).1 < g := hg
    rw [hother (by omega)]
    exact h.fresh (by omega)
  · by_cases hk' : k = place.number
    · subst hk'
      have hp' : d.entered[place.number]? = some p := hp
      rw [hvalid.program] at hp'
      obtain rfl := Option.some.inj hp'
      rw [hself]
      by_contra hlast
      have hafter : (place.after args).1 = place.number := by
        rw [Place.after, if_neg (show ¬place.Last args from hlast)]
      have hlt : place.number < (place.after args).1 := hk
      omega
    · have hlt : k < d.gate.1 := by
        have hk'' : k < (place.after args).1 := hk
        unfold Place.after at hk''
        split at hk'' <;> omega
      rw [hother (by omega)]
      exact h.past hlt hp

/-- The last worker opens the closed barrier. -/
theorem Inv.release (h : Inv args launch s) (hw : w < launch.workerCount)
    (hplan : ValidPlan args launch)
    (hpc : s.pcs w = .release place) : Inv args launch (Compiled.step workload args w s) := by
  have hfit := h.fits w hw
  have hleads : (s.pcs w).role s.device = .leading := by rw [hpc]; rfl
  have hcount := (h.gathering.leads w hw hleads).1
  unfold Compiled.step
  rw [hpc] at hfit ⊢
  obtain ⟨hvalid, hgate, hstatus⟩ := hfit
  have hprogram : place.program < args.programs.length :=
    h.words.programs (List.mem_of_getElem? hvalid.program)
  have hsmall : args.stageCount place.program < 2 ^ 32 := by
    have hle := (hplan.stages hprogram).stageCount_le
    have hle' : (args.program place.program).taskCount ≤ 64 :=
      (hplan.graph.program hprogram).taskCount_le
    omega
  have hwords : Words args launch (opens args w place s.device) :=
    h.words.opens hsmall hvalid hgate
  have hnot : s.device.state.status ≠ .ready := by
    rcases hstatus with ⟨-, hrunning, -⟩ | ⟨-, hrunning, -⟩ | ⟨-, hended, -⟩
    · rw [hrunning]
      exact nofun
    · rw [hrunning]
      exact nofun
    · exact hended.1
  -- All workers wait for the barrier that is opened now.
  have hall : ∀ v < launch.workerCount, ∃ place',
      (s.turn w (opens args w place s.device) (.spin place)).pcs v = .spin place' ∧
      place'.Valid args launch.base s.device ∧ place'.barrier = place.barrier := by
    intro v hv
    by_cases heq : v = w
    · subst heq
      exact ⟨place, Sys.turn_pcs_self .., hvalid, rfl⟩
    · obtain ⟨place', hpc', hvalid', hgate'⟩ := h.waiting hw hleads hv heq
      exact ⟨place', (Function.update_of_ne heq _ _).trans hpc', hvalid', hgate'.symm.trans hgate⟩
  have hafter : ∀ {place' : Place}, place'.Valid args launch.base s.device →
      place'.barrier = place.barrier → place'.after args = place.after args := by
    intro place' hvalid' hbarrier
    obtain ⟨hnumber, hstage⟩ := Prod.mk.inj hbarrier
    have hsame : place'.program = place.program := by
      have hentered := hvalid'.program
      rw [hnumber, hvalid.program] at hentered
      exact (Option.some.inj hentered).symm
    have hlast : place'.Last args ↔ place.Last args := by rw [Place.Last, hstage, hsame, Place.Last]
    simp only [Place.after, hlast, hnumber, hstage]
  change Inv args launch (s.turn w (opens args w place s.device) (.spin place))
  refine ⟨hwords, ?_, ?_, fun v hv => ?_⟩
  · rcases hstatus with ⟨hlast, hrunning, hnumber⟩ | ⟨hlast, hrunning, hnumber⟩ |
      ⟨hlast, hended, hnumber⟩
    · refine .running hrunning ?_ ?_
      · change (place.after args).1 = s.device.left.length
        rw [Place.after, if_neg hlast]
        exact hnumber
      · change (place.after args).2 < args.stageCount s.device.program
        have hsame : place.program = s.device.program := by
          have hentered := hvalid.program
          rw [hnumber, s.device.entered_last] at hentered
          exact (Option.some.inj hentered).symm
        rw [Place.after, if_neg hlast, ← hsame]
        exact hvalid.next_lt hlast
    · refine .running hrunning ?_ ?_
      · change (place.after args).1 = s.device.left.length
        rw [Place.after, if_pos hlast]
        exact hnumber
      · change (place.after args).2 < args.stageCount s.device.program
        rw [Place.after, if_pos hlast]
        exact (hplan.stages (h.words.programs (by simp [Device.entered]))).stageCount_pos
    · refine .ended hended ?_
      change place.after args = (s.device.left.length + 1, 0)
      rw [Place.after, if_pos hlast, hnumber]
  · have hclaimed : ((opens args w place s.device).phaseStates
        (launch.base + (place.after args).1)).claimedMask = 0 := by
      have hnumber : s.device.gate.1 = place.number := by rw [hgate]; rfl
      rw [Place.after]
      by_cases hlast : place.Last args
      · rw [if_pos hlast, hvalid.phaseStates_opens_of_ne (by omega), h.words.fresh (by omega)]
      · rw [if_neg hlast, hvalid.phaseStates_opens]
        rw [hnumber] at hcount
        exact hcount
    change Gathering _ _ ((opens args w place s.device).phaseStates
      (launch.base + (place.after args).1)).claimedMask
    rw [hclaimed]
    refine gathering_away (Nat.zero_lt_of_lt hw) fun v hv => ?_
    obtain ⟨place', hpc', -, hbarrier⟩ := hall v hv
    rw [hpc', Pc.role, if_neg]
    rw [hbarrier]
    exact place.barrier_ne_after args
  · obtain ⟨place', hpc', hvalid', hbarrier⟩ := hall v hv
    rw [hpc']
    exact ⟨hvalid'.mono id, hnot, .inr (hafter hvalid' hbarrier).symm⟩

/-- Every turn keeps the invariant, as long as the phase word tells the generations apart. -/
theorem Inv.step (h : Inv args launch s) (hvalid : validatePlan workload args launch = true)
    (hw : w < launch.workerCount)
    (hroom : launch.base + (Compiled.step workload args w s).device.left.length <
      kMaximumPhaseStates) :
    Inv args launch (Compiled.step workload args w s) := by
  have hplan := validPlan_of_validate hvalid
  have hfit := h.fits w hw
  have hprogram : s.device.program < args.programs.length :=
    h.words.programs (by simp [Device.entered])
  cases hpc : s.pcs w with
  | arrive place => exact h.arrive hw hplan.graph.workerCount_le hpc
  | reset place => exact h.reset hw hpc
  | settle place outcome => exact h.settle hw hplan.graph hpc hroom
  | release place => exact h.release hw hplan hpc
  | spin place => exact h.spin hw hpc
  | publish status =>
    unfold Compiled.step
    rw [hpc]
    exact h.publish hw (hplan.stages hprogram) hpc
  | begin =>
    rw [hpc] at hfit
    obtain ⟨hzero, hgate, hended⟩ := hfit
    unfold Compiled.step
    rw [hpc]
    simp only [turn]
    by_cases heq : w = 0
    · obtain ⟨hstate, hready⟩ := hzero heq
      rw [if_pos heq, hstate, if_pos hvalid]
      exact h.stay hw (by rw [hpc]; exact (by simp))
        (by rw [hpc]; rfl) ⟨heq, rfl, by rw [hstate, hready], hgate⟩
    · rw [if_neg heq]
      by_cases hready : s.device.state.status = .ready
      · rw [if_pos hready]
        exact h.stay hw
          (by rw [hpc]; exact (by simp)) (by rw [hpc]) ⟨hzero, hgate, hended⟩
      · rw [if_neg hready]
        refine h.stay hw
          (by rw [hpc]; exact (by simp)) (by rw [hpc]; rfl) ?_
        have hrunning : s.device.state.status = .running := by
          by_contra hne
          exact hended ⟨hready, hne⟩
        cases h.position with
        | ready hready' => exact absurd hready' hready
        | running _ hnumber => exact .inl ⟨hrunning, by rw [← hnumber, hgate]⟩
        | opening hv hpc' => exact absurd hpc' (h.not_release hw (by rw [hpc]; rfl) hv _)
        | ended hended' => exact absurd hended' hended
  | check =>
    rw [hpc] at hfit
    unfold Compiled.step
    rw [hpc]
    simp only [turn]
    rcases hfit with ⟨hrunning, hgate⟩ | ⟨hended, hgate⟩
    · rw [if_pos hrunning]
      exact h.stay hw (by rw [hpc]; exact (by simp))
        (by rw [hpc]; rfl) ⟨hrunning, hgate⟩
    · rw [if_neg hended.2]
      exact h.stay hw (by rw [hpc]; exact (by simp))
        (by rw [hpc]; rfl) ⟨rfl, hended, hgate⟩
  | loadPhase =>
    rw [hpc] at hfit
    obtain ⟨hrunning, hgate⟩ := hfit
    have hpos := (hplan.stages hprogram).stageCount_pos
    unfold Compiled.step
    rw [hpc]
    simp only [turn, if_pos hpos]
    refine h.pass hw rfl rfl rfl rfl rfl rfl (fun _ => rfl) (.inr (by rw [hpc]; exact (by rintro ⟨⟩)))
      (by rw [hpc]; exact (by simp)) (by rw [hpc]; rfl) ⟨⟨⟨?_, ?_, hpos⟩, rfl, hgate, hrunning⟩, ?_⟩
    · exact h.words.generation
    · exact s.device.entered_last
    · exact fun hactive => Nat.mod_eq_of_lt hactive
  | work place taskIndex =>
    rw [hpc] at hfit
    obtain ⟨hat, hmine⟩ := hfit
    unfold Compiled.step
    rw [hpc]
    simp only [turn, h.words.workerCount]
    split
    · rename_i hnext
      refine h.pass hw rfl rfl rfl rfl rfl rfl (fun _ => rfl) (.inr (by rw [hpc]; exact (by rintro ⟨⟩)))
        (by rw [hpc]; exact (by simp)) (by rw [hpc]; rfl) ?_
      exact ⟨hat.frame rfl rfl rfl rfl, hnext.1, hmine hnext.1, hnext.2⟩
    · exact h.stay hw (by rw [hpc]; exact (by simp))
        (by rw [hpc]; rfl) hat
  | execute place taskIndex action =>
    rw [hpc] at hfit
    obtain ⟨hat, hactive, hmine, hlt⟩ := hfit
    unfold Compiled.step
    rw [hpc]
    simp only [turn, h.words.workerCount]
    split
    · refine h.pass hw rfl rfl rfl rfl rfl rfl (fun _ => rfl) (.inr (by rw [hpc]; exact (by rintro ⟨⟩)))
        (by rw [hpc]; exact (by simp)) (by rw [hpc]; rfl) ⟨hat.frame rfl rfl rfl rfl, fun _ => ?_⟩
      rw [Nat.add_mod_right, hmine]
    · exact h.pass hw rfl rfl rfl rfl rfl rfl (fun _ => rfl) (.inr (by rw [hpc]; exact (by rintro ⟨⟩)))
        (by rw [hpc]; exact (by simp)) (by rw [hpc]; rfl)
        ⟨hat.frame rfl rfl rfl rfl, hactive, hmine, hlt⟩
  | advance place =>
    rw [hpc] at hfit
    obtain ⟨hat, hlast⟩ := hfit
    unfold Compiled.step
    rw [hpc]
    refine h.pass hw rfl rfl rfl rfl rfl rfl (fun hready => ?_) (.inr (by rw [hpc]; exact (by rintro ⟨⟩)))
      (by rw [hpc]; exact (by simp)) (by rw [hpc]; rfl) ⟨⟨hat.frame rfl rfl rfl rfl, hlast⟩, rfl⟩
    rw [hat.running] at hready
    cases hready
  | decide place step =>
    rw [hpc] at hfit
    obtain ⟨hplace, rfl⟩ := hfit
    unfold Compiled.step
    rw [hpc]
    exact h.stay hw (by rw [hpc]; exact (by simp))
      (by rw [hpc]; rfl) ⟨hplace, rfl⟩
  | returned status =>
    rw [hpc] at hfit
    unfold Compiled.step
    rw [hpc]
    exact h.stay hw (by rw [hpc]; exact (by simp))
      (by rw [hpc]; rfl) hfit

/-- A launch that the host has prepared. -/
theorem inv_init (hvalid : validatePlan workload args launch = true)
    (hready : launch.status = .ready) (hmax : launch.base < kMaximumPhaseStates) :
    Inv args launch (init launch memory) := by
  have hgraph := (validPlan_of_validate hvalid).graph
  refine ⟨⟨hgraph.phaseGeneration_lt, hmax, rfl, fun {p} hp => ?_, rfl, rfl, fun _ => rfl,
    fun hk => absurd hk (Nat.not_lt_zero _)⟩, .ready hready rfl rfl, ?_, fun w _ => ?_⟩
  · obtain rfl : p = phaseProgram launch.phase := by
      simpa [init, Device.entered, Device.program] using hp
    exact hgraph.phaseProgram_lt
  · exact gathering_away hgraph.workerCount_pos fun _ _ => rfl
  · exact ⟨fun _ => ⟨rfl, hready⟩, rfl, fun hended => hended.1 hready⟩

end LightRocm.Graph.Compiled
