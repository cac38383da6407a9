import LightRocm.Lib.Run

/-!
# The double buffer of pinned host memory

`PinnedHostDoubleBuffer` hands out two slots in turn. A slot is filled by a copy to the
device and then used by work on a queue; each of the two has an event. Copies and work are
jobs of the GPU, which complete in any order that respects the jobs they wait for, and an
event completes with the jobs it was recorded for.
-/

namespace LightRocm.Pipeline

/-- `Slot::State`. -/
inductive SlotState where
  | available
  | acquired
  | copySubmitted
  | workSubmitted
  deriving DecidableEq

/-- `Slot`. An event is the list of the jobs it waits for; `copies` and `marked` remember every
copy that has been submitted for the slot and all work that has been marked. -/
structure Slot where
  state : SlotState := .available
  copyComplete : List ℕ := []
  workComplete : List ℕ := []
  copies : List ℕ := []
  marked : List ℕ := []

/-- `PinnedHostDoubleBuffer` and the GPU: the jobs in flight and all jobs so far. -/
structure State where
  slotSize : ℕ
  slots : Fin 2 → Slot := fun _ => {}
  nextSlot : Fin 2 := 0
  inFlight : List ℕ := []
  started : List ℕ := []

/-- Write a slot back. -/
def State.put (s : State) (i : Fin 2) (slot : Slot) : State :=
  { s with slots := Function.update s.slots i slot }

/-- All jobs of an event have completed. -/
abbrev State.Completed (s : State) (event : List ℕ) : Prop := ∀ job ∈ event, job ∉ s.inFlight

/-- A new job of the GPU. -/
def State.start (s : State) (job : ℕ) : State :=
  { s with inFlight := job :: s.inFlight, started := job :: s.started }

/-- What a call has done: a value, or an exception with its message. -/
abbrev Outcome (α : Type) : Type := Except String α × State

/-- The end of `acquire`: take a slot that is available. -/
def State.take (s : State) (slot : Slot) : Outcome (Fin 2) :=
  if slot.state ≠ .available then
    (.error "double-buffer slot is already acquired", s.put s.nextSlot slot)
  else (.ok s.nextSlot, s.put s.nextSlot { slot with state := .acquired })

/-- `acquire`. A wait for an event throws if `waits` is false; otherwise the call returns only when
the event has completed. -/
def State.acquire (waits : Bool) (s : State) : Option (Outcome (Fin 2)) :=
  let slot := s.slots s.nextSlot
  if slot.state = .workSubmitted then
    if !waits then some (.error "lr_event_synchronize", s)
    else if s.Completed slot.workComplete then some (s.take { slot with state := .available })
    else none
  else some (s.take slot)

/-- How a call that submits a copy ends: with the copy submitted, with an exception before that, or
with an exception after it. -/
inductive Submission where
  | submitted
  | refused
  | lost
  deriving DecidableEq

/-- The slot that `require_slot` lets through; `none` stands for a slot of another buffer. -/
def requireSlot : Option (Fin 2) → Except String (Fin 2)
  | some i => .ok i
  | none => .error "slot does not belong to this double buffer"

/-- `copy_to_device_async`; `job` is the copy on the GPU. -/
def State.copyToDeviceAsync (slot? : Option (Fin 2)) (size job : ℕ) (submission : Submission)
    (s : State) : Outcome Unit :=
  match requireSlot slot? with
  | .error message => (.error message, s)
  | .ok i =>
    let slot := s.slots i
    if slot.state ≠ .acquired then
      (.error "double-buffer slot must be acquired before copy", s)
    else if size = 0 ∨ s.slotSize < size then
      (.error "double-buffer copy size is out of range", s)
    else
      let copied := { slot with copyComplete := [job], copies := job :: slot.copies }
      match submission with
      | .refused => (.error "lr_memcpy_async_with_dependencies host to device", s)
      | .lost => (.error "lr_memcpy_async_with_dependencies host to device",
          (s.start job).put i copied)
      | .submitted => (.ok (), (s.start job).put i { copied with state := .copySubmitted })

/-- `mark_work_submitted`; `queue` is the work on the queue, and `recorded` says whether recording
the event succeeds. -/
def State.markWorkSubmitted (slot? : Option (Fin 2)) (queue : List ℕ) (recorded : Bool)
    (s : State) : Outcome Unit :=
  match requireSlot slot? with
  | .error message => (.error message, s)
  | .ok i =>
    let slot := s.slots i
    if slot.state ≠ .copySubmitted then
      (.error "double-buffer copy must be submitted before device work", s)
    else if !recorded then (.error "lr_event_record_on_queue", s)
    else
      (.ok (), { s.put i { slot with
        workComplete := queue, marked := queue ++ slot.marked, state := .workSubmitted } with
        nextSlot := s.nextSlot + 1 })

/-- One turn of the loop of `finish`. -/
def State.finishSlot (i : Fin 2) (waits : Bool) (s : State) : Option (Outcome Unit) :=
  let slot := s.slots i
  let done : Outcome Unit := (.ok (), s.put i { slot with state := .available })
  let wait (event : List ℕ) : Option (Outcome Unit) :=
    if !waits then some (.error "lr_event_synchronize", s)
    else if s.Completed event then some done else none
  match slot.state with
  | .workSubmitted => wait slot.workComplete
  | .copySubmitted => wait slot.copyComplete
  | .available | .acquired => some done

/-- `finish`; the two waits are for the two slots. -/
def State.finish (first second : Bool) (s : State) : Option (Outcome Unit) :=
  (s.finishSlot 0 first).bind fun outcome =>
    match outcome with
    | (.ok (), t) => t.finishSlot 1 second
    | (.error message, t) => some (.error message, t)

/-- What can happen: the calls, the start of other work, and the end of a job. -/
inductive Label where
  | acquire (waits : Bool)
  | copy (slot? : Option (Fin 2)) (size job : ℕ) (submission : Submission)
  | mark (slot? : Option (Fin 2)) (queue : List ℕ) (recorded : Bool)
  | finish (first second : Bool)
  | launch (job : ℕ)
  | complete (job : ℕ)

variable (dependencies : ℕ → List ℕ)

/-- One step. Jobs are new when they start, a queue holds jobs that have been started, and a job
completes after the jobs it waits for. -/
def step : Label → State → Option State
  | .acquire waits, s => (s.acquire waits).map Prod.snd
  | .copy slot? size job submission, s =>
    if job ∉ s.started then some (s.copyToDeviceAsync slot? size job submission).2 else none
  | .mark slot? queue recorded, s =>
    if queue ⊆ s.started then some (s.markWorkSubmitted slot? queue recorded).2 else none
  | .finish first second, s => (s.finish first second).map Prod.snd
  | .launch job, s => if job ∉ s.started then some (s.start job) else none
  | .complete job, s =>
    if s.Completed (dependencies job) then
      some { s with inFlight := s.inFlight.filter (· ≠ job) }
    else none

/-- Every copy for the slot and all work marked for it. -/
def Slot.jobs (slot : Slot) : List ℕ := slot.copies ++ slot.marked

/-- The work waits for the job, at once or through other jobs in flight. -/
def WaitsFor (inFlight : List ℕ) : ℕ → ℕ → Prop :=
  Relation.TransGen fun later earlier => later ∈ inFlight ∧ earlier ∈ dependencies later

/-- What callers owe: the work that is marked waits for the copy unless the copy has completed, and
a copy that throws has not been submitted. -/
def Allowed (s : State) : Label → Prop
  | .copy _ _ _ submission => submission ≠ .lost
  | .mark slot? queue _ => ∀ i, slot? = some i → ∀ job ∈ (s.slots i).copyComplete,
      job ∈ s.inFlight → ∃ work ∈ queue, WaitsFor dependencies s.inFlight work job
  | .acquire _ | .finish _ _ | .launch _ | .complete _ => True

/-- The event that the state of the slot points to completes only after the job. -/
def Slot.Guards (inFlight : List ℕ) (slot : Slot) (job : ℕ) : Prop :=
  match slot.state with
  | .available | .acquired => False
  | .copySubmitted => job ∈ slot.copyComplete
  | .workSubmitted => job ∈ slot.workComplete ∨
      ∃ work ∈ slot.workComplete, WaitsFor dependencies inFlight work job

/-- The jobs of a slot have been started, and its event guards those in flight. -/
def SlotInv (s : State) (slot : Slot) : Prop :=
  ∀ job ∈ slot.jobs, job ∈ s.started ∧ (job ∈ s.inFlight → slot.Guards dependencies s.inFlight job)

/-- The invariant of the double buffer. -/
def Inv (s : State) : Prop := ∀ i, SlotInv dependencies s (s.slots i)

variable {dependencies}

/-- Work that waits for a job is in flight. -/
theorem WaitsFor.working {inFlight : List ℕ} {work job : ℕ}
    (h : WaitsFor dependencies inFlight work job) : work ∈ inFlight := by
  obtain ⟨_, hfirst, -⟩ := Relation.TransGen.head'_iff.mp h
  exact hfirst.1

/-- The end of another job changes nothing: none of the jobs between them can be the one that
ends, since each waits for a job in flight. -/
theorem WaitsFor.complete {inFlight : List ℕ} {work job ended : ℕ}
    (h : WaitsFor dependencies inFlight work job) (hjob : job ∈ inFlight)
    (hended : ∀ other ∈ dependencies ended, other ∉ inFlight) :
    WaitsFor dependencies (inFlight.filter (· ≠ ended)) work job := by
  have hkept : ∀ {later earlier}, later ∈ inFlight → earlier ∈ dependencies later →
      earlier ∈ inFlight → later ∈ inFlight.filter (· ≠ ended) := by
    intro later earlier hlater hdep hearlier
    refine List.mem_filter.mpr ⟨hlater, decide_eq_true ?_⟩
    rintro rfl
    exact hended earlier hdep hearlier
  induction h using Relation.TransGen.head_induction_on with
  | single hstep => exact .single ⟨hkept hstep.1 hstep.2 hjob, hstep.2⟩
  | head hstep hrest ih => exact .head ⟨hkept hstep.1 hstep.2 (WaitsFor.working hrest), hstep.2⟩ ih

variable {s : State} {slot : Slot}

theorem Inv.put (h : Inv dependencies s) (hslot : SlotInv dependencies s slot) (i : Fin 2) :
    Inv dependencies (s.put i slot) := by
  intro j
  change SlotInv dependencies s (Function.update s.slots i slot j)
  by_cases hj : j = i
  · subst hj
    rwa [Function.update_self]
  · rw [Function.update_of_ne hj]
    exact h j

/-- A slot without a job in flight may get any state. -/
theorem SlotInv.setState (h : SlotInv dependencies s slot) (hdone : s.Completed slot.jobs)
    (state : SlotState) :
    SlotInv dependencies s { slot with state := state } :=
  fun job hjob => ⟨(h job hjob).1, fun hflight => absurd hflight (hdone job hjob)⟩

/-- A slot that waits for nothing has no job in flight. -/
theorem SlotInv.completed (h : SlotInv dependencies s slot)
    (hstate : slot.state = .available ∨ slot.state = .acquired) : s.Completed slot.jobs := by
  intro job hjob hflight
  have hguards := (h job hjob).2 hflight
  rcases hstate with hstate | hstate <;> simp [Slot.Guards, hstate] at hguards

/-- When the event of the work has completed, so have all jobs of the slot. -/
theorem SlotInv.completed_of_work (h : SlotInv dependencies s slot)
    (hstate : slot.state = .workSubmitted) (hevent : s.Completed slot.workComplete) :
    s.Completed slot.jobs := by
  intro job hjob hflight
  have hguards := (h job hjob).2 hflight
  simp only [Slot.Guards, hstate] at hguards
  obtain hmem | ⟨work, hwork, hwaits⟩ := hguards
  · exact hevent job hmem hflight
  · exact hevent work hwork hwaits.working

/-- When the event of the copy has completed before any work, so have all jobs of the slot. -/
theorem SlotInv.completed_of_copy (h : SlotInv dependencies s slot)
    (hstate : slot.state = .copySubmitted) (hevent : s.Completed slot.copyComplete) :
    s.Completed slot.jobs := by
  intro job hjob hflight
  have hguards := (h job hjob).2 hflight
  simp only [Slot.Guards, hstate] at hguards
  exact hevent job hguards hflight

variable {s t : State}

/-- Taking a slot leaves it without a job in flight. -/
theorem Inv.take (h : Inv dependencies s) {result : Except String (Fin 2)}
    (hslot : SlotInv dependencies s slot) (htake : s.take slot = (result, t)) :
    Inv dependencies t ∧ ∀ i, result = .ok i → t.Completed (t.slots i).jobs := by
  unfold State.take at htake
  split_ifs at htake with hstate
  · obtain ⟨rfl, rfl⟩ := Prod.mk.inj htake
    exact ⟨h.put hslot _, by rintro i ⟨⟩⟩
  · obtain ⟨rfl, rfl⟩ := Prod.mk.inj htake
    have hdone := hslot.completed (.inl (not_not.mp hstate))
    refine ⟨h.put (hslot.setState hdone _) _, ?_⟩
    rintro i ⟨⟩
    simpa [State.put, State.Completed, Slot.jobs] using hdone

/-- What `acquire` returns has no job in flight. -/
theorem Inv.acquire (h : Inv dependencies s) {waits : Bool} {result : Except String (Fin 2)}
    (hcall : s.acquire waits = some (result, t)) :
    Inv dependencies t ∧ ∀ i, result = .ok i → t.Completed (t.slots i).jobs := by
  unfold State.acquire at hcall
  dsimp only at hcall
  split_ifs at hcall with hstate hwaits hevent
  · obtain ⟨rfl, rfl⟩ := Prod.mk.inj (Option.some.inj hcall)
    exact ⟨h, by rintro i ⟨⟩⟩
  · have hdone := (h _).completed_of_work hstate hevent
    exact h.take ((h _).setState hdone _) (Option.some.inj hcall)
  · exact h.take (h _) (Option.some.inj hcall)

/-- One turn of `finish` leaves its slot without a job in flight, and the other one alone. -/
theorem Inv.finishSlot (h : Inv dependencies s) {i : Fin 2} {waits : Bool}
    {result : Except String Unit} (hcall : s.finishSlot i waits = some (result, t)) :
    Inv dependencies t ∧ t.inFlight = s.inFlight ∧ (∀ j, (t.slots j).jobs = (s.slots j).jobs) ∧
      (result = .ok () → s.Completed (s.slots i).jobs) := by
  have hput (hdone : s.Completed (s.slots i).jobs)
      (houtcome : (.ok (), s.put i { s.slots i with state := .available }) = (result, t)) :
      Inv dependencies t ∧ t.inFlight = s.inFlight ∧ (∀ j, (t.slots j).jobs = (s.slots j).jobs) ∧
        (result = .ok () → s.Completed (s.slots i).jobs) := by
    obtain ⟨rfl, rfl⟩ := Prod.mk.inj houtcome
    refine ⟨h.put ((h i).setState hdone _) i, rfl, fun j => ?_, fun _ => hdone⟩
    by_cases hj : j = i
    · subst hj
      simp [State.put, Slot.jobs]
    · simp [State.put, hj]
  have hthrow {message : String} (houtcome : (.error message, s) = (result, t)) :
      Inv dependencies t ∧ t.inFlight = s.inFlight ∧ (∀ j, (t.slots j).jobs = (s.slots j).jobs) ∧
        (result = .ok () → s.Completed (s.slots i).jobs) := by
    obtain ⟨rfl, rfl⟩ := Prod.mk.inj houtcome
    exact ⟨h, rfl, fun _ => rfl, by rintro ⟨⟩⟩
  unfold State.finishSlot at hcall
  cases hstate : (s.slots i).state <;> simp only [hstate] at hcall
  case available => exact hput ((h i).completed (.inl hstate)) (Option.some.inj hcall)
  case acquired => exact hput ((h i).completed (.inr hstate)) (Option.some.inj hcall)
  case copySubmitted =>
    split_ifs at hcall with hwaits hevent
    · exact hthrow (Option.some.inj hcall)
    · exact hput ((h i).completed_of_copy hstate hevent) (Option.some.inj hcall)
  case workSubmitted =>
    split_ifs at hcall with hwaits hevent
    · exact hthrow (Option.some.inj hcall)
    · exact hput ((h i).completed_of_work hstate hevent) (Option.some.inj hcall)

/-- After `finish` has returned, no slot has a job in flight. -/
theorem Inv.finish (h : Inv dependencies s) {first second : Bool} {result : Except String Unit}
    (hcall : s.finish first second = some (result, t)) :
    Inv dependencies t ∧ (result = .ok () → ∀ i, t.Completed (t.slots i).jobs) := by
  obtain ⟨⟨middle, u⟩, hfirst, hrest⟩ := Option.bind_eq_some_iff.mp hcall
  obtain ⟨hinv, hflight, hjobs, hdone⟩ := h.finishSlot hfirst
  cases middle with
  | error message =>
    obtain ⟨rfl, rfl⟩ := Prod.mk.inj (Option.some.inj hrest)
    exact ⟨hinv, by rintro ⟨⟩⟩
  | ok =>
    obtain ⟨hinv', hflight', hjobs', hdone'⟩ := hinv.finishSlot hrest
    refine ⟨hinv', fun hok i => ?_⟩
    unfold State.Completed at hdone hdone' ⊢
    rw [hjobs', hflight']
    fin_cases i
    · rw [hflight]
      exact hjobs 0 ▸ hdone rfl
    · exact hdone' hok

/-- A new job leaves the guards of a slot in place. -/
theorem SlotInv.start (h : SlotInv dependencies s slot) {job : ℕ} (hnew : job ∉ s.started) :
    SlotInv dependencies (s.start job) slot := by
  intro other hother
  obtain ⟨hstarted, hguards⟩ := h other hother
  refine ⟨List.mem_cons_of_mem _ hstarted, fun hflight => ?_⟩
  have hne : other ≠ job := fun heq => hnew (heq ▸ hstarted)
  have hguard := hguards (List.mem_of_ne_of_mem hne hflight)
  cases hstate : slot.state <;> simp only [Slot.Guards, hstate] at hguard ⊢
  case copySubmitted => exact hguard
  case workSubmitted =>
    exact hguard.imp_right fun ⟨work, hwork, hwaits⟩ =>
      ⟨work, hwork, Relation.TransGen.mono
        (fun _ _ hstep => hstep.imp_left (List.mem_cons_of_mem _)) _ _ hwaits⟩

/-- The end of a job leaves the guards of the jobs still in flight in place. -/
theorem SlotInv.complete (h : SlotInv dependencies s slot) {job : ℕ}
    (hdone : s.Completed (dependencies job)) :
    SlotInv dependencies { s with inFlight := s.inFlight.filter (· ≠ job) } slot := by
  intro other hother
  obtain ⟨hstarted, hguards⟩ := h other hother
  refine ⟨hstarted, fun hflight => ?_⟩
  obtain ⟨hbefore, -⟩ := List.mem_filter.mp hflight
  have hguard := hguards hbefore
  cases hstate : slot.state <;> simp only [Slot.Guards, hstate] at hguard ⊢
  case copySubmitted => exact hguard
  case workSubmitted =>
    exact hguard.imp_right fun ⟨work, hwork, hwaits⟩ =>
      ⟨work, hwork, hwaits.complete hbefore hdone⟩

/-- A copy keeps the invariant unless it throws after it has been submitted. -/
theorem Inv.copy (h : Inv dependencies s) {slot? : Option (Fin 2)} {size job : ℕ}
    {submission : Submission} (hnew : job ∉ s.started) (hlost : submission ≠ .lost) :
    Inv dependencies (s.copyToDeviceAsync slot? size job submission).2 := by
  unfold State.copyToDeviceAsync
  cases hslot : requireSlot slot? with
  | error message => exact h
  | ok i =>
    dsimp only
    split_ifs with hstate hsize
    · exact h
    · exact h
    cases submission with
    | refused => exact h
    | lost => exact absurd rfl hlost
    | submitted =>
      have hstarted : Inv dependencies (s.start job) := fun j => (h j).start hnew
      refine hstarted.put (fun other hother => ?_) i
      rcases List.mem_cons.mp hother with rfl | hother
      · exact ⟨List.mem_cons_self, fun _ => List.mem_singleton_self _⟩
      · obtain ⟨hbefore, hguards⟩ := h i other hother
        refine ⟨List.mem_cons_of_mem _ hbefore, fun hflight => ?_⟩
        have hne : other ≠ job := fun heq => hnew (heq ▸ hbefore)
        have hdone := (h i).completed (.inr (not_not.mp hstate)) other hother
        exact absurd (List.mem_of_ne_of_mem hne hflight) hdone

/-- Marking work that waits for the copy keeps the invariant. -/
theorem Inv.mark (h : Inv dependencies s) {slot? : Option (Fin 2)} {queue : List ℕ}
    {recorded : Bool} (hqueue : queue ⊆ s.started)
    (hallowed : Allowed dependencies s (.mark slot? queue recorded)) :
    Inv dependencies (s.markWorkSubmitted slot? queue recorded).2 := by
  unfold State.markWorkSubmitted
  cases slot? with
  | none => exact h
  | some i =>
    dsimp only [requireSlot]
    split_ifs with hstate hrecorded
    · exact h
    · exact h
    refine h.put (fun job hjob => ?_) i
    by_cases hmem : job ∈ queue
    · exact ⟨hqueue hmem, fun _ => .inl hmem⟩
    · have hjob : job ∈ (s.slots i).jobs := by simpa [Slot.jobs, hmem] using hjob
      obtain ⟨hbefore, hguards⟩ := h i job hjob
      refine ⟨hbefore, fun hflight => .inr ?_⟩
      have hguard := hguards hflight
      simp only [Slot.Guards, not_not.mp hstate] at hguard
      exact hallowed i rfl job hguard hflight

/-- Every allowed step keeps the invariant. -/
theorem Inv.step {label : Label} (h : Inv dependencies s) (hallowed : Allowed dependencies s label)
    (hstep : step dependencies label s = some t) :
    Inv dependencies t := by
  cases label with
  | acquire waits =>
    obtain ⟨⟨result, u⟩, hcall, rfl⟩ := Option.map_eq_some_iff.mp hstep
    exact (h.acquire hcall).1
  | copy slot? size job submission =>
    obtain ⟨hnew, rfl⟩ := Run.of_guard hstep
    exact h.copy hnew hallowed
  | mark slot? queue recorded =>
    obtain ⟨hqueue, rfl⟩ := Run.of_guard hstep
    exact h.mark hqueue hallowed
  | finish first second =>
    obtain ⟨⟨result, u⟩, hcall, rfl⟩ := Option.map_eq_some_iff.mp hstep
    exact (h.finish hcall).1
  | launch job =>
    obtain ⟨hnew, rfl⟩ := Run.of_guard hstep
    exact fun i => (h i).start hnew
  | complete job =>
    obtain ⟨hdone, rfl⟩ := Run.of_guard hstep
    exact fun i => (h i).complete hdone

/-- After any run of allowed steps, a slot that `acquire` returns has no copy and no marked work in
flight, and neither has any slot after `finish` has returned. -/
theorem slots_settled {size : ℕ} {labels : List Label} {s : State}
    (hrun : Run.Steps (step dependencies) (Allowed dependencies) { slotSize := size } labels s) :
    (∀ waits i t, s.acquire waits = some (.ok i, t) → t.Completed (t.slots i).jobs) ∧
      ∀ first second t, s.finish first second = some (.ok (), t) →
        ∀ i, t.Completed (t.slots i).jobs := by
  have hinit : Inv dependencies { slotSize := size } := by
    rintro i job ⟨⟩
  have hinv : Inv dependencies s :=
    hrun.invariant (fun _ _ _ h hallowed hstep => h.step hallowed hstep) hinit
  exact ⟨fun waits i t hcall => (hinv.acquire hcall).2 i rfl,
    fun first second t hcall => (hinv.finish hcall).2 rfl⟩

/-- Job 9 waits for job 7, and that for the copy 0. -/
def chain (job : ℕ) : List ℕ := if job = 9 then [7] else if job = 7 then [0] else []

/-- The work that is marked waits for the copy of slot 0 through another job. -/
theorem slotZero_settled : ∃ s t : State,
    Run.Steps (step chain) (Allowed chain) { slotSize := 1 }
      [.acquire true, .copy (some 0) 1 0 .submitted, .launch 7, .launch 9,
        .mark (some 0) [9] true, .complete 0, .complete 7, .complete 9] s ∧
      s.finish true true = some (.ok (), t) ∧ (t.slots 0).jobs = [0, 9] ∧
      t.Completed (t.slots 0).jobs := by
  obtain ⟨s, t, hrun, hcall, hjobs⟩ : ∃ s t : State,
      Run.Steps (step chain) (Allowed chain) { slotSize := 1 }
        [.acquire true, .copy (some 0) 1 0 .submitted, .launch 7, .launch 9,
          .mark (some 0) [9] true, .complete 0, .complete 7, .complete 9] s ∧
      s.finish true true = some (.ok (), t) ∧ (t.slots 0).jobs = [0, 9] := by
    refine ⟨_, _, .cons trivial rfl (.cons (by rintro ⟨⟩) rfl (.cons trivial rfl (.cons trivial rfl
      (.cons ?_ rfl (.cons trivial rfl (.cons trivial rfl (.cons trivial rfl (.nil _)))))))),
      rfl, rfl⟩
    rintro i ⟨⟩ job hjob -
    obtain rfl := List.mem_singleton.mp hjob
    exact ⟨9, by decide, .head ⟨by decide, List.mem_singleton_self 7⟩
      (.single ⟨by decide, List.mem_singleton_self 0⟩)⟩
  exact ⟨s, t, hrun, hcall, hjobs, (slots_settled hrun).2 true true t hcall 0⟩

/-- A turn of a slot: acquire it, copy to it, mark a queue without work. -/
def emptyTurn (i : Fin 2) (job : ℕ) : List Label :=
  [.acquire true, .copy (some i) 1 job .submitted, .mark (some i) [] true]

/-- Work that does not wait for the copy: the slot comes back while its copy is in flight, and
`finish` returns. -/
theorem slot_returned_during_copy :
    ∃ s, Run.exec (step fun _ => []) (emptyTurn 0 0 ++ emptyTurn 1 1) { slotSize := 1 } = some s ∧
      (∃ t, s.acquire true = some (.ok 0, t) ∧ 0 ∈ (t.slots 0).copies ∧ 0 ∈ t.inFlight) ∧
      ∃ t, s.finish true true = some (.ok (), t) ∧ 0 ∈ (t.slots 0).copies ∧ 0 ∈ t.inFlight :=
  ⟨_, rfl, ⟨_, rfl, by decide, by decide⟩, _, rfl, by decide, by decide⟩

end LightRocm.Pipeline
