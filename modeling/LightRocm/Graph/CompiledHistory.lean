import LightRocm.Graph.CompiledBoard

/-!
# The history of the compiled scheduler

The invariant of the workers gives each event the condition that the history asks
for. `Barriers` is what the trace says about the barriers: those before the closed
one have seen every worker, the closed one those that have arrived, and those
after it nobody.
-/

namespace LightRocm.Graph.Compiled

open Barrier

variable {workload : Workload} {args : ResidentArgs} {launch : State} {memory : Memory}
  {s : Sys Pc} {d d' : Device} {w v workers : ℕ} {pc : Pc} {pcs pcs' : ℕ → Pc} {place : Place}

/-- Every turn keeps the history. -/
theorem Inv.history_step (h : Inv args launch s) (hplan : ValidPlan args launch)
    (hboard : Board args launch.workerCount s.device s.pcs) (hw : w < launch.workerCount)
    (hhistory : History args s.device) :
    History args (Compiled.step workload args w s).device := by
  have hfit := h.fits w hw
  have hprogram : s.device.program < args.programs.length :=
    h.words.programs (by simp [Device.entered])
  have hstages := hplan.stages hprogram
  change History args (turn workload args w s.device (s.pcs w)).1
  cases hpc : s.pcs w with
  | begin =>
    simp only [turn]
    split <;> exact hhistory
  | check | decide | spin | returned => exact hhistory
  | publish status =>
    rw [hpc] at hfit
    obtain ⟨-, rfl, hready, -⟩ := hfit
    refine hhistory.congr rfl rfl rfl ?_ fun _ => ⟨rfl, rfl⟩
    rw [hready]
    exact ⟨fun hended => absurd rfl hended.2, fun hended => absurd rfl hended.1⟩
  | loadPhase => exact hhistory.note rfl rfl rfl rfl rfl (by simp) (by simp) (by simp)
  | arrive place => exact hhistory.note rfl rfl rfl rfl rfl (by simp) (by simp) (by simp)
  | release place => exact hhistory.note rfl rfl rfl rfl rfl (by simp) (by simp) (by simp)
  | reset place => exact hhistory.congr rfl rfl rfl Iff.rfl fun _ => ⟨rfl, rfl⟩
  | advance place => exact hhistory.congr rfl rfl rfl Iff.rfl fun _ => ⟨rfl, rfl⟩
  | work place taskIndex =>
    rw [hpc] at hfit
    obtain ⟨hat, hmine⟩ := hfit
    simp only [turn, h.words.workerCount]
    split
    · rename_i hnext
      have hown := hmine hnext.1
      rw [hat.active_eq] at hown
      have hlt : stageNow args s.device < args.stageCount s.device.program := by
        rw [hat.stageNow.1, ← hat.program_eq]
        exact hat.valid.stage_lt
      rw [hat.descriptor_eq] at hnext
      rw [hat.task_eq hstages]
      refine hhistory.take (fun hended => hended.2 hat.running)
        (hstages.lt_taskCount hlt hnext.2) ?_ fun i hi => ?_
      · rw [hboard.now taskIndex hnext.2, hown, hpc]
        exact if_neg (Nat.lt_irrefl _)
      · exact hboard.done i ((hstages.stage hlt).lt_of_depends hnext.2 hi)
    · exact hhistory
  | execute place taskIndex action =>
    rw [hpc] at hfit
    obtain ⟨hat, hactive, hmine, hlt⟩ := hfit
    simp only [turn]
    split
    · rw [hat.active_eq] at hmine
      rw [hat.descriptor_eq] at hlt
      rw [hat.task_eq hstages]
      refine hhistory.finish (fun hended => hended.2 hat.running) ?_
      rw [hboard.now taskIndex hlt, hmine, hpc]
      simp [Pc.mark]
    · exact hhistory.congr rfl rfl rfl Iff.rfl fun _ => ⟨rfl, rfl⟩
  | settle place outcome =>
    rw [hpc] at hfit
    obtain ⟨⟨hat, hlast⟩, -⟩ := hfit
    refine hhistory.settle (fun hended => hended.2 hat.running) (fun t ht => ?_) _ _
    have hgate : s.device.gate.1 = s.device.left.length := by
      rw [hat.gate]
      exact hat.number
    refine h.executed hboard hw (by rw [hpc]; rfl) hgate (fun j => ?_) ?_
    · rw [hpc]
      exact List.cons_ne_nil _ _
    · have hstage : stageNow args s.device + 1 = args.stageCount s.device.program := by
        rw [hat.stageNow.1, ← hat.program_eq]
        exact hlast
      rwa [hstage, hstages.stageStart_last]

/-! ## The trace of the barriers -/

section Trace

variable {trace : List Event} {e : Event} {k i : ℕ}

@[simp] theorem arrivals_snoc :
    arrivals (trace ++ [e]) k i = arrivals trace k i ++ arrivals [e] k i :=
  List.filterMap_append

@[simp] theorem releases_snoc :
    releases (trace ++ [e]) k i = releases trace k i ++ releases [e] k i :=
  List.filterMap_append

@[simp] theorem follows_snoc : follows (trace ++ [e]) w = follows trace w ++ follows [e] w :=
  List.filterMap_append

end Trace

/-- Number of phases that a worker has entered. -/
def Pc.seen (d : Device) : Pc → ℕ
  | .work place _ | .execute place _ _ | .arrive place | .reset place | .advance place
  | .decide place _ | .settle place _ | .release place | .spin place => place.number + 1
  | .begin | .publish _ | .check | .loadPhase | .returned _ => d.gate.1

/-- The barriers before another one. -/
def Earlier (barrier gate : ℕ × ℕ) : Prop :=
  barrier.1 < gate.1 ∨ barrier.1 = gate.1 ∧ barrier.2 < gate.2

/-- What the trace says about the barriers. -/
structure Barriers (args : ResidentArgs) (workers : ℕ) (d : Device) (pcs : ℕ → Pc) : Prop where
  order : StageOrder args workers d.entered d.trace
  /-- The closed barrier has seen the workers that have arrived. -/
  current : ∀ w < workers, (arrivals d.trace d.gate.1 d.gate.2).count w =
    if (pcs w).role d = .away then 0 else 1
  closed : releases d.trace d.gate.1 d.gate.2 = []
  /-- The barriers before it have seen every worker and are open. -/
  past : ∀ {k i p}, d.entered[k]? = some p → i < args.stageCount p → Earlier (k, i) d.gate →
    releases d.trace k i ≠ [] ∧ ∀ w < workers, (arrivals d.trace k i).count w = 1
  /-- Nobody has come to the barriers after it. -/
  future : ∀ {k i}, Earlier d.gate (k, i) →
    arrivals d.trace k i = [] ∧ releases d.trace k i = []
  follows : ∀ w < workers, follows d.trace w = d.entered.take ((pcs w).seen d)

/-- One more event. -/
theorem StageOrder.snoc {entered : List ℕ} {trace : List Event} {e : Event}
    (h : StageOrder args workers entered trace)
    (hstarted : ∀ w k t, e = .started w k t → ∃ p i j, entered[k]? = some p ∧
      i < args.stageCount p ∧ j < (args.stage p i).taskCount ∧ t = args.stageStart p i + j ∧
      ∀ t' < args.stageStart p i, finishes trace k t' ≠ [])
    (harrived : ∀ w k i, e = .arrived w k i → w < workers ∧ w ∉ arrivals trace k i ∧
      releases trace k i = [] ∧ Passed args entered trace k i ∧
      ∃ p, entered[k]? = some p ∧ i < args.stageCount p)
    (hreleased : ∀ w k i, e = .released w k i → releases trace k i = [] ∧
      ∀ w' < workers, w' ∈ arrivals trace k i) :
    StageOrder args workers entered (trace ++ [e]) := by
  refine ⟨fun {before after w k t} hsplit => ?_, fun {before after w k i} hsplit => ?_,
    fun {before after w k i} hsplit => ?_⟩
  · rcases split_snoc hsplit with ⟨rest, hold⟩ | ⟨rfl, heq⟩
    · exact h.started hold
    · exact hstarted w k t heq.symm
  · rcases split_snoc hsplit with ⟨rest, hold⟩ | ⟨rfl, heq⟩
    · exact h.arrived hold
    · exact harrived w k i heq.symm
  · rcases split_snoc hsplit with ⟨rest, hold⟩ | ⟨rfl, heq⟩
    · exact h.released hold
    · exact hreleased w k i heq.symm

/-- One more phase. -/
theorem StageOrder.enter {entered : List ℕ} {trace : List Event}
    (h : StageOrder args workers entered trace) (p : ℕ) :
    StageOrder args workers (entered ++ [p]) trace := by
  have hgrow : ∀ {k q : ℕ}, entered[k]? = some q → (entered ++ [p])[k]? = some q := by
    intro k q hq
    rwa [List.getElem?_append_left (List.getElem?_eq_some_iff.mp hq).1]
  refine ⟨fun hsplit => ?_, fun hsplit => ?_, fun hsplit => h.released hsplit⟩
  · obtain ⟨q, i, j, hq, hrest⟩ := h.started hsplit
    exact ⟨q, i, j, hgrow hq, hrest⟩
  · obtain ⟨hw, hnew, hclosed, ⟨hstages, hphases⟩, q, hq, hi⟩ := h.arrived hsplit
    refine ⟨hw, hnew, hclosed, ⟨hstages, fun j q' hj hq' => hphases j q' hj ?_⟩, q, hgrow hq, hi⟩
    have hlt : j < entered.length := hj.trans (List.getElem?_eq_some_iff.mp hq).1
    rwa [List.getElem?_append_left hlt] at hq'

/-- The role of a worker depends on the closed barrier only. -/
theorem role_congr (hgate : d'.gate = d.gate) (pc : Pc) : pc.role d' = pc.role d := by
  cases pc with
  | spin place => simp only [Pc.role, hgate]
  | _ => rfl

/-- So does the number of phases it has entered. -/
theorem seen_congr (hgate : d'.gate = d.gate) (pc : Pc) : pc.seen d' = pc.seen d := by
  cases pc <;> simp only [Pc.seen, hgate]

/-- An event that says nothing about barriers. -/
def Quiet : Event → Prop
  | .arrived _ _ _ | .released _ _ _ | .followed _ _ => False
  | .started _ _ _ | .finished _ _ _ | .advanced _ _ => True

section Quiet

variable {trace events : List Event} (hquiet : ∀ e ∈ events, Quiet e)

include hquiet

theorem arrivals_append (k i : ℕ) : arrivals (trace ++ events) k i = arrivals trace k i := by
  have hnone : arrivals events k i = [] := by
    refine List.filterMap_eq_nil_iff.mpr fun e he => ?_
    have hevent := hquiet e he
    cases e with
    | arrived => exact hevent.elim
    | _ => rfl
  exact List.filterMap_append.trans ((congrArg _ hnone).trans (List.append_nil _))

theorem releases_append (k i : ℕ) : releases (trace ++ events) k i = releases trace k i := by
  have hnone : releases events k i = [] := by
    refine List.filterMap_eq_nil_iff.mpr fun e he => ?_
    have hevent := hquiet e he
    cases e with
    | released => exact hevent.elim
    | _ => rfl
  exact List.filterMap_append.trans ((congrArg _ hnone).trans (List.append_nil _))

theorem follows_append (v : ℕ) : follows (trace ++ events) v = follows trace v := by
  have hnone : follows events v = [] := by
    refine List.filterMap_eq_nil_iff.mpr fun e he => ?_
    have hevent := hquiet e he
    cases e with
    | followed => exact hevent.elim
    | _ => rfl
  exact List.filterMap_append.trans ((congrArg _ hnone).trans (List.append_nil _))

end Quiet

/-- A turn that changes nothing at the barriers. -/
theorem Barriers.keep (h : Barriers args workers d pcs) (hgate : d'.gate = d.gate)
    (hentered : d'.entered = d.entered) {events : List Event}
    (htrace : d'.trace = d.trace ++ events) (hquiet : ∀ e ∈ events, Quiet e)
    (horder : StageOrder args workers d'.entered d'.trace)
    (hrole : pc.role d = .away ↔ (pcs w).role d = .away) (hseen : pc.seen d = (pcs w).seen d) :
    Barriers args workers d' (Function.update pcs w pc) := by
  have harrivals : ∀ k i, arrivals d'.trace k i = arrivals d.trace k i := fun k i => by
    rw [htrace, arrivals_append hquiet]
  have hreleases : ∀ k i, releases d'.trace k i = releases d.trace k i := fun k i => by
    rw [htrace, releases_append hquiet]
  have hfollows : ∀ v, Compiled.follows d'.trace v = Compiled.follows d.trace v := fun v => by
    rw [htrace, follows_append hquiet]
  refine ⟨horder, fun v hv => ?_, ?_, ?_, ?_, fun v hv => ?_⟩
  · rw [harrivals, hgate, h.current v hv, role_congr hgate]
    by_cases heq : v = w
    · subst heq
      simp only [Function.update_self, hrole]
    · rw [Function.update_of_ne heq]
  · rw [hreleases, hgate]
    exact h.closed
  · simp only [harrivals, hreleases, hgate, hentered]
    exact h.past
  · simp only [harrivals, hreleases, hgate]
    exact h.future
  · rw [hfollows, hentered, h.follows v hv, seen_congr hgate]
    by_cases heq : v = w
    · subst heq
      rw [Function.update_self, hseen]
    · rw [Function.update_of_ne heq]

/-- A turn without an event that changes nothing at the barriers. -/
theorem Barriers.quiet (h : Barriers args workers d pcs) (hgate : d'.gate = d.gate)
    (hentered : d'.entered = d.entered) (htrace : d'.trace = d.trace)
    (hrole : pc.role d = .away ↔ (pcs w).role d = .away) (hseen : pc.seen d = (pcs w).seen d) :
    Barriers args workers d' (Function.update pcs w pc) := by
  have hnil : d'.trace = d.trace ++ [] := by rw [htrace, List.append_nil]
  refine h.keep hgate hentered hnil (by simp) ?_ hrole hseen
  rw [hentered, htrace]
  exact h.order

/-- The barriers before the closed one are open. -/
theorem Barriers.passed (h : Barriers args workers d pcs) {p : ℕ}
    (hp : d.entered[d.gate.1]? = some p) (hstage : d.gate.2 ≤ args.stageCount p) :
    Passed args d.entered d.trace d.gate.1 d.gate.2 := by
  refine ⟨fun i hi => ?_, fun j q hj hq i hi => ?_⟩
  · exact (h.past hp (hi.trans_le hstage) (.inr ⟨rfl, hi⟩)).1
  · exact (h.past hq hi (.inl hj)).1

/-- A worker arrives at the closed barrier. -/
theorem Barriers.count (h : Barriers args workers d pcs) (hw : w < workers)
    {base : ℕ} (hat : place.At args base d) (haway : (pcs w).role d = .away)
    (hrole : pc.role d ≠ .away) (hseen : (pcs w).seen d = place.number + 1)
    (hseen' : pc.seen d = place.number + 1) :
    Barriers args workers (count w place d) (Function.update pcs w pc) := by
  have hgate : (place.number, place.stage) = d.gate := hat.gate.symm
  have hnumber : d.gate.1 = place.number := (congrArg Prod.fst hgate).symm
  have hstage : d.gate.2 = place.stage := (congrArg Prod.snd hgate).symm
  have harrivals : ∀ k i, arrivals (Compiled.count w place d).trace k i =
      arrivals d.trace k i ++ if (k, i) = d.gate then [w] else [] := by
    intro k i
    change arrivals (d.trace ++ [_]) k i = _
    rw [arrivals_snoc, ← hgate]
    congr 1
    by_cases heq : (k, i) = (place.number, place.stage)
    · obtain ⟨rfl, rfl⟩ := Prod.mk.inj heq
      simp [arrivals]
    · have hne : ¬(place.number = k ∧ place.stage = i) := fun hboth =>
        heq (by rw [hboth.1, hboth.2])
      simp [arrivals, hne, heq]
  have hreleases : ∀ k i, releases (Compiled.count w place d).trace k i = releases d.trace k i := by
    intro k i
    change releases (d.trace ++ [_]) k i = _
    rw [releases_snoc]
    exact List.append_nil _
  have hfollows : ∀ v, Compiled.follows (Compiled.count w place d).trace v =
      Compiled.follows d.trace v := by
    intro v
    change Compiled.follows (d.trace ++ [_]) v = _
    rw [follows_snoc]
    exact List.append_nil _
  have hne : ∀ {k i}, Earlier (k, i) d.gate ∨ Earlier d.gate (k, i) → (k, i) ≠ d.gate := by
    rintro k i hcase heq
    rw [← heq] at hcase
    simp [Earlier] at hcase
  refine ⟨?_, fun v hv => ?_, ?_, fun {k i p} hp hi hearlier => ?_, fun {k i} hlater => ?_,
    fun v hv => ?_⟩
  · refine h.order.snoc nofun ?_ nofun
    rintro w' k i heq
    obtain ⟨rfl, rfl, rfl⟩ := Event.arrived.inj heq
    rw [← hnumber, ← hstage]
    refine ⟨hw, ?_, h.closed, h.passed (p := place.program) ?_ ?_, place.program, ?_, ?_⟩
    · rw [← List.count_eq_zero, h.current w hw, if_pos haway]
    · rw [hnumber]
      exact hat.valid.program
    · rw [hstage]
      exact hat.valid.stage_lt.le
    · rw [hnumber]
      exact hat.valid.program
    · rw [hstage]
      exact hat.valid.stage_lt
  · change (arrivals (Compiled.count w place d).trace d.gate.1 d.gate.2).count v =
      if (Function.update pcs w pc v).role d = .away then 0 else 1
    rw [harrivals, if_pos rfl, List.count_append, h.current v hv]
    by_cases heq : v = w
    · subst heq
      rw [Function.update_self, if_pos haway, if_neg hrole, List.count_singleton_self]
    · have hzero : [w].count v = 0 := List.count_eq_zero_of_not_mem (by simpa using heq)
      rw [Function.update_of_ne heq, hzero, Nat.add_zero]
  · change releases (Compiled.count w place d).trace d.gate.1 d.gate.2 = []
    rw [hreleases]
    exact h.closed
  · rw [harrivals, hreleases, if_neg (hne (.inl hearlier)), List.append_nil]
    exact h.past hp hi hearlier
  · rw [harrivals, hreleases, if_neg (hne (.inr hlater)), List.append_nil]
    exact h.future hlater
  · rw [hfollows, h.follows v hv]
    change d.entered.take _ = d.entered.take ((Function.update pcs w pc v).seen d)
    by_cases heq : v = w
    · subst heq
      rw [Function.update_self, hseen, hseen']
    · rw [Function.update_of_ne heq]

/-- A worker enters the current phase. -/
theorem Barriers.follow (h : Barriers args workers d pcs) (hw : w < workers)
    (haway : (pcs w).role d = .away) (hrole : pc.role d = .away)
    (hseen : (pcs w).seen d = d.left.length) (hseen' : pc.seen d = d.left.length + 1) :
    Barriers args workers (follow w d) (Function.update pcs w pc) := by
  have harrivals : ∀ k i, arrivals (Compiled.follow w d).trace k i = arrivals d.trace k i := by
    intro k i
    change arrivals (d.trace ++ [_]) k i = _
    rw [arrivals_snoc]
    exact List.append_nil _
  have hreleases : ∀ k i, releases (Compiled.follow w d).trace k i = releases d.trace k i := by
    intro k i
    change releases (d.trace ++ [_]) k i = _
    rw [releases_snoc]
    exact List.append_nil _
  refine ⟨h.order.snoc nofun nofun nofun, fun v hv => ?_, ?_, ?_, ?_, fun v hv => ?_⟩
  · rw [harrivals]
    change (arrivals d.trace d.gate.1 d.gate.2).count v =
      if (Function.update pcs w pc v).role d = .away then 0 else 1
    rw [h.current v hv]
    by_cases heq : v = w
    · subst heq
      rw [Function.update_self, haway, hrole]
    · rw [Function.update_of_ne heq]
  · rw [hreleases]
    exact h.closed
  · simp only [harrivals, hreleases]
    exact h.past
  · simp only [harrivals, hreleases]
    exact h.future
  · change Compiled.follows (d.trace ++ [.followed w d.program]) v =
      d.entered.take ((Function.update pcs w pc v).seen d)
    rw [follows_snoc, h.follows v hv]
    by_cases heq : v = w
    · subst heq
      have hone : Compiled.follows [.followed v d.program] v = [d.program] := by
        simp [Compiled.follows]
      rw [Function.update_self, hseen, hseen', hone, Device.entered, List.take_left',
        List.take_of_length_le (by simp)]
      rfl
    · have hnone : Compiled.follows [.followed w d.program] v = [] := by
        simp [Compiled.follows, Ne.symm heq]
      rw [Function.update_of_ne heq, hnone, List.append_nil]

/-- The closed barrier is opened after every worker has arrived. -/
theorem Barriers.opens (h : Barriers args workers d pcs) {base : ℕ}
    (hvalid : place.Valid args base d) (hgate : d.gate = place.barrier)
    (harrived : ∀ v < workers, (pcs v).role d ≠ .away)
    (hspin : ∀ v < workers, ∃ place', Function.update pcs w pc v = .spin place' ∧
      place'.number = place.number ∧ place'.barrier ≠ place.after args)
    (hseen : ∀ v < workers, (pcs v).seen d = place.number + 1) :
    Barriers args workers (opens args w place d) (Function.update pcs w pc) := by
  have hnumber : d.gate.1 = place.number := congrArg Prod.fst hgate
  have hstage : d.gate.2 = place.stage := congrArg Prod.snd hgate
  have harrivals : ∀ k i, arrivals (Compiled.opens args w place d).trace k i =
      arrivals d.trace k i := by
    intro k i
    change arrivals (d.trace ++ [_]) k i = _
    rw [arrivals_snoc]
    exact List.append_nil _
  have hreleases : ∀ k i, releases (Compiled.opens args w place d).trace k i =
      releases d.trace k i ++ if (k, i) = d.gate then [w] else [] := by
    intro k i
    change releases (d.trace ++ [_]) k i = _
    rw [releases_snoc, hgate, Place.barrier]
    congr 1
    by_cases heq : (k, i) = (place.number, place.stage)
    · obtain ⟨rfl, rfl⟩ := Prod.mk.inj heq
      simp [releases]
    · have hne : ¬(place.number = k ∧ place.stage = i) := fun hboth =>
        heq (by rw [hboth.1, hboth.2])
      simp [releases, hne, heq]
  have hfollows : ∀ v, Compiled.follows (Compiled.opens args w place d).trace v =
      Compiled.follows d.trace v := by
    intro v
    change Compiled.follows (d.trace ++ [_]) v = _
    rw [follows_snoc]
    exact List.append_nil _
  have hall : ∀ v < workers, (arrivals d.trace d.gate.1 d.gate.2).count v = 1 := by
    intro v hv
    rw [h.current v hv, if_neg (harrived v hv)]
  -- A barrier after the new one comes after the old one.
  have hlater : Earlier d.gate (place.after args) := by
    rw [hgate, Place.after]
    split
    · exact .inl (Nat.lt_succ_self _)
    · exact .inr ⟨rfl, Nat.lt_succ_self _⟩
  have htrans : ∀ {k i}, Earlier (place.after args) (k, i) → Earlier d.gate (k, i) := by
    intro k i hafter
    simp only [Earlier] at hlater hafter ⊢
    omega
  have hne : ∀ {barrier}, Earlier d.gate barrier → barrier ≠ d.gate := by
    rintro barrier hcase heq
    rw [← heq] at hcase
    simp [Earlier] at hcase
  have hnew : arrivals d.trace (place.after args).1 (place.after args).2 = [] ∧
      releases d.trace (place.after args).1 (place.after args).2 = [] := h.future hlater
  refine ⟨?_, fun v hv => ?_, ?_, fun {k i p} hp hi hearlier => ?_, fun {k i} hafter => ?_,
    fun v hv => ?_⟩
  · refine h.order.snoc (by simp) (by simp) ?_
    rintro w' k i heq
    obtain ⟨-, rfl, rfl⟩ := Event.released.inj heq
    rw [← hnumber, ← hstage]
    refine ⟨h.closed, fun v hv => ?_⟩
    rw [← List.count_pos_iff, hall v hv]
    exact Nat.one_pos
  · change (arrivals (Compiled.opens args w place d).trace (place.after args).1
      (place.after args).2).count v = _
    obtain ⟨place', hpc, -, hother⟩ := hspin v hv
    rw [harrivals, hnew.1, hpc]
    exact (if_pos (if_neg hother)).symm
  · change releases (Compiled.opens args w place d).trace (place.after args).1
      (place.after args).2 = []
    rw [hreleases, hnew.2, List.nil_append]
    exact if_neg (hne hlater)
  · rw [hreleases, harrivals]
    by_cases heq : (k, i) = d.gate
    · rw [if_pos heq]
      refine ⟨by simp, fun v hv => ?_⟩
      have hk : k = d.gate.1 := congrArg Prod.fst heq
      have hi' : i = d.gate.2 := congrArg Prod.snd heq
      rw [hk, hi']
      exact hall v hv
    · rw [if_neg heq, List.append_nil]
      refine h.past hp hi ?_
      -- Between the old barrier and the new one there is no other.
      have hearlier' : Earlier (k, i) (place.after args) := hearlier
      have hp' : d.entered[k]? = some p := hp
      rw [hgate, Place.barrier] at heq ⊢
      unfold Place.after at hearlier'
      by_cases hlast : place.Last args
      · rw [if_pos hlast] at hearlier'
        by_cases hk : k = place.number
        · subst hk
          rw [hvalid.program] at hp'
          obtain rfl := Option.some.inj hp'
          have hlast' : place.stage + 1 = args.stageCount place.program := hlast
          have hne' : i ≠ place.stage := fun hi' => heq (by rw [hi'])
          exact .inr ⟨rfl, by change i < place.stage; omega⟩
        · simp only [Earlier] at hearlier' ⊢
          omega
      · rw [if_neg hlast] at hearlier'
        have hne' : ¬(k = place.number ∧ i = place.stage) := fun hboth =>
          heq (by rw [hboth.1, hboth.2])
        simp only [Earlier] at hearlier' ⊢
        omega
  · rw [harrivals, hreleases, if_neg (hne (htrans hafter)), List.append_nil]
    exact h.future (htrans hafter)
  · obtain ⟨place', hpc, hsame, -⟩ := hspin v hv
    rw [hfollows, h.follows v hv, hseen v hv, hpc]
    change d.entered.take _ = d.entered.take (place'.number + 1)
    rw [hsame]

/-- The next phase is entered while all workers wait at the last barrier of this one. -/
theorem Barriers.enter (h : Barriers args workers d pcs) (hgate : d.gate.1 = d.left.length)
    (phase : ℕ) (hrole : pc.role d = .away ↔ (pcs w).role d = .away)
    (hseen : pc.seen d = (pcs w).seen d)
    (hall : ∀ v < workers, (pcs v).seen d = d.left.length + 1) :
    Barriers args workers (d.enter w phase) (Function.update pcs w pc) := by
  have hentered : (d.enter w phase).entered = d.entered ++ [phaseProgram phase] := rfl
  have hquiet : ∀ e ∈ [Event.advanced w d.left.length], Quiet e := by
    intro e he
    rw [List.mem_singleton.mp he]
    trivial
  refine ⟨?_, fun v hv => ?_, ?_, fun {k i p} hp hi hearlier => ?_, fun {k i} hlater => ?_,
    fun v hv => ?_⟩
  · have horder : StageOrder args workers d.entered
        (d.trace ++ [.advanced w d.left.length]) := h.order.snoc nofun nofun nofun
    exact horder.enter _
  · change (arrivals (d.trace ++ [.advanced w d.left.length]) d.gate.1 d.gate.2).count v =
      if (Function.update pcs w pc v).role d = .away then 0 else 1
    rw [arrivals_append hquiet, h.current v hv]
    by_cases heq : v = w
    · subst heq
      simp only [Function.update_self, hrole]
    · rw [Function.update_of_ne heq]
  · change releases (d.trace ++ [.advanced w d.left.length]) d.gate.1 d.gate.2 = []
    rw [releases_append hquiet]
    exact h.closed
  · change releases (d.trace ++ [.advanced w d.left.length]) k i ≠ [] ∧
      ∀ v < workers, (arrivals (d.trace ++ [.advanced w d.left.length]) k i).count v = 1
    rw [releases_append hquiet, arrivals_append hquiet]
    have hearlier' : Earlier (k, i) d.gate := hearlier
    have hlt : k < d.entered.length := by
      simp only [Earlier] at hearlier'
      simp only [Device.entered, List.length_append, List.length_singleton]
      omega
    rw [hentered, List.getElem?_append_left hlt] at hp
    exact h.past hp hi hearlier'
  · change arrivals (d.trace ++ [.advanced w d.left.length]) k i = [] ∧
      releases (d.trace ++ [.advanced w d.left.length]) k i = []
    rw [releases_append hquiet, arrivals_append hquiet]
    exact h.future hlater
  · have hsame : (Function.update pcs w pc v).seen d = (pcs v).seen d := by
      by_cases heq : v = w
      · subst heq
        rw [Function.update_self, hseen]
      · rw [Function.update_of_ne heq]
    change Compiled.follows (d.trace ++ [.advanced w d.left.length]) v =
      (d.enter w phase).entered.take ((Function.update pcs w pc v).seen d)
    rw [follows_append hquiet, h.follows v hv, hsame, hall v hv, hentered,
      List.take_append_of_le_length (by simp [Device.entered])]

/-- Every turn keeps the trace of the barriers. -/
theorem Inv.barriers_step (h : Inv args launch s) (hplan : ValidPlan args launch)
    (hboard : Board args launch.workerCount s.device s.pcs) (hhistory : History args s.device)
    (hw : w < launch.workerCount)
    (hbarriers : Barriers args launch.workerCount s.device s.pcs) :
    Barriers args launch.workerCount (Compiled.step workload args w s).device
      (Compiled.step workload args w s).pcs := by
  have hfit := h.fits w hw
  have hstages : ValidStages args s.device.program :=
    hplan.stages (h.words.programs (by simp [Device.entered]))
  have horder := hbarriers.order
  have hone : ∀ {e : Event}, Quiet e → ∀ e' ∈ [e], Quiet e' := by
    intro e hquiet e' he'
    rwa [List.mem_singleton.mp he']
  change Barriers args launch.workerCount (turn workload args w s.device (s.pcs w)).1
    (Function.update s.pcs w (turn workload args w s.device (s.pcs w)).2)
  cases hpc : s.pcs w with
  | begin =>
    simp only [turn]
    split
    · exact hbarriers.quiet rfl rfl rfl (by rw [hpc]; rfl) (by rw [hpc]; rfl)
    · refine hbarriers.quiet rfl rfl rfl ?_ ?_
      · rw [hpc]
        split <;> rfl
      · rw [hpc]
        split <;> rfl
  | publish | returned =>
    exact hbarriers.quiet rfl rfl rfl (by rw [hpc]; rfl) (by rw [hpc]; rfl)
  | advance | decide =>
    exact hbarriers.quiet rfl rfl rfl (by rw [hpc]; rfl) (by rw [hpc]; rfl)
  | check =>
    simp only [turn]
    split
    · exact hbarriers.quiet rfl rfl rfl (by rw [hpc]; rfl) (by rw [hpc]; rfl)
    · exact hbarriers.quiet rfl rfl rfl (by rw [hpc]; rfl) (by rw [hpc]; rfl)
  | loadPhase =>
    rw [hpc] at hfit
    simp only [turn, if_pos hstages.stageCount_pos]
    refine hbarriers.follow hw (by rw [hpc]; rfl) rfl ?_ rfl
    rw [hpc]
    exact congrArg Prod.fst hfit.2
  | work place taskIndex =>
    rw [hpc] at hfit
    obtain ⟨hat, -⟩ := hfit
    simp only [turn]
    split
    · rename_i hnext
      refine hbarriers.keep rfl rfl rfl (hone trivial) ?_ (by rw [hpc]; rfl) (by rw [hpc]; rfl)
      refine horder.snoc ?_ (by simp) (by simp)
      rintro w' k t heq
      obtain ⟨-, rfl, rfl⟩ := Event.started.inj heq
      rw [hat.descriptor_eq] at hnext
      refine ⟨s.device.program, stageNow args s.device, taskIndex, s.device.entered_last, ?_,
        hnext.2, hat.task_eq hstages taskIndex, fun t ht => ?_⟩
      · rw [hat.stageNow.1, ← hat.program_eq]
        exact hat.valid.stage_lt
      · rw [(hhistory.current t).2]
        exact hboard.done t ht
    · exact hbarriers.quiet rfl rfl rfl (by rw [hpc]; rfl) (by rw [hpc]; rfl)
  | execute place taskIndex action =>
    simp only [turn]
    split
    · exact hbarriers.keep rfl rfl rfl (hone trivial) (horder.snoc (by simp) (by simp) (by simp))
        (by rw [hpc]; rfl) (by rw [hpc]; rfl)
    · exact hbarriers.quiet rfl rfl rfl (by rw [hpc]; rfl) (by rw [hpc]; rfl)
  | arrive place =>
    rw [hpc] at hfit
    have hat : place.At args launch.base s.device := hfit
    simp only [turn]
    refine hbarriers.count hw hat (by rw [hpc]; rfl) ?_ (by rw [hpc]; rfl) ?_
    · split
      · exact (by rintro ⟨⟩)
      · rw [Pc.role, if_pos hat.gate.symm]
        exact (by rintro ⟨⟩)
    · split <;> rfl
  | reset place =>
    simp only [turn]
    split
    · exact hbarriers.quiet rfl rfl rfl
        (by rw [hpc]; exact ⟨(by rintro ⟨⟩), (by rintro ⟨⟩)⟩) (by rw [hpc]; rfl)
    · exact hbarriers.quiet rfl rfl rfl
        (by rw [hpc]; exact ⟨(by rintro ⟨⟩), (by rintro ⟨⟩)⟩) (by rw [hpc]; rfl)
  | spin place =>
    rw [hpc] at hfit
    simp only [turn, h.completedMask hw hpc]
    by_cases hgate : s.device.gate = place.barrier
    · rw [if_pos hgate, if_pos (Nat.lt_succ_self _)]
      exact hbarriers.quiet rfl rfl rfl (by rw [hpc]) (by rw [hpc])
    · have haway : (Pc.spin place).role s.device = .away := if_neg fun heq => hgate heq.symm
      have hafter := hfit.2.2.resolve_left hgate
      rw [if_neg hgate, if_neg (Nat.lt_irrefl _)]
      split
      · exact hbarriers.quiet rfl rfl rfl
          (by rw [hpc, haway]; rfl) (by rw [hpc]; rfl)
      · rename_i hnext
        have hlast : place.Last args := by
          by_contra hlast
          exact hnext (hfit.1.next_lt hlast)
        rw [Place.after, if_pos hlast] at hafter
        refine hbarriers.quiet rfl rfl rfl (by rw [hpc, haway]; rfl) ?_
        rw [hpc]
        exact congrArg Prod.fst hafter
  | settle place outcome =>
    rw [hpc] at hfit
    obtain ⟨⟨hat, -⟩, -⟩ := hfit
    have hleads : (s.pcs w).role s.device = .leading := by rw [hpc]; rfl
    have hstop : ∀ (status : Status) (errorCode : ℕ), Barriers args launch.workerCount
        (s.device.stop w status errorCode) (Function.update s.pcs w (.release place)) :=
      fun status errorCode => hbarriers.keep rfl rfl rfl (hone trivial)
        (horder.snoc (by simp) (by simp) (by simp)) (by rw [hpc]; rfl) (by rw [hpc]; rfl)
    cases outcome with
    | complete | maxSteps | exhausted => exact hstop _ _
    | next p =>
      refine hbarriers.enter ?_ _ (by rw [hpc]; rfl) (by rw [hpc]; rfl) fun v hv => ?_
      · rw [hat.gate]
        exact hat.number
      · by_cases heq : v = w
        · subst heq
          rw [hpc]
          exact congrArg (· + 1) hat.number
        · obtain ⟨place', hpc', -, hgate'⟩ := h.waiting hw hleads hv heq
          rw [hpc']
          have hsame : place'.number = place.number :=
            congrArg Prod.fst (hgate'.symm.trans hat.gate)
          exact congrArg (· + 1) (hsame.trans hat.number)
  | release place =>
    rw [hpc] at hfit
    obtain ⟨hvalid, hgate, -⟩ := hfit
    have hleads : (s.pcs w).role s.device = .leading := by rw [hpc]; rfl
    simp only [turn]
    refine hbarriers.opens hvalid hgate (fun v hv => ?_) (fun v hv => ?_) fun v hv => ?_
    · by_cases heq : v = w
      · subst heq
        rw [hleads]
        exact (by rintro ⟨⟩)
      · rw [(h.gathering.leads w hw hleads).2 v hv heq]
        exact (by rintro ⟨⟩)
    · by_cases heq : v = w
      · subst heq
        exact ⟨place, Function.update_self .., rfl, place.barrier_ne_after args⟩
      · obtain ⟨place', hpc', -, hgate'⟩ := h.waiting hw hleads hv heq
        have hsame : place'.barrier = place.barrier := hgate'.symm.trans hgate
        refine ⟨place', (Function.update_of_ne heq _ _).trans hpc', congrArg Prod.fst hsame, ?_⟩
        rw [hsame]
        exact place.barrier_ne_after args
    · by_cases heq : v = w
      · subst heq
        rw [hpc]
        rfl
      · obtain ⟨place', hpc', -, hgate'⟩ := h.waiting hw hleads hv heq
        rw [hpc']
        exact congrArg (·.1 + 1) (hgate'.symm.trans hgate)

/-! ## Runs -/

/-- The invariant of a launch and of its history. -/
structure Sound (args : ResidentArgs) (launch : State) (s : Sys Pc) : Prop where
  inv : Inv args launch s
  board : Board args launch.workerCount s.device s.pcs
  history : History args s.device
  barriers : Barriers args launch.workerCount s.device s.pcs

/-- A launch that the host has prepared. -/
theorem sound_init (hvalid : validatePlan workload args launch = true)
    (hready : launch.status = .ready) (hmax : launch.base < kMaximumPhaseStates) :
    Sound args launch (init launch memory) where
  inv := inv_init hvalid hready hmax
  board := board_init _
  history := History.init rfl rfl (fun _ => rfl) fun hended => hended.1 hready
  barriers := by
    refine ⟨⟨fun hsplit => ?_, fun hsplit => ?_, fun hsplit => ?_⟩, fun _ _ => rfl, rfl,
      fun {k i p} _ _ hearlier => ?_, fun _ => ⟨rfl, rfl⟩, fun _ _ => rfl⟩
    · simp [init] at hsplit
    · simp [init] at hsplit
    · simp [init] at hsplit
    · simp [Earlier, init] at hearlier

/-- Only the end of a phase adds to the phases that have been left. -/
theorem left_turn (workload : Workload) (args : ResidentArgs) (w : ℕ) (d : Device) (pc : Pc) :
    (turn workload args w d pc).1.left = d.left ∨
    ∃ place p, pc = .settle place (.next p) ∧
      (turn workload args w d pc).1.left = d.left ++ [d.program] := by
  cases pc with
  | begin | work | execute =>
    left
    simp only [turn]
    split <;> rfl
  | settle place outcome =>
    cases outcome with
    | next p => exact .inr ⟨place, p, rfl, rfl⟩
    | complete | maxSteps | exhausted => exact .inl rfl
  | _ => exact .inl rfl

/-- The generations stay below the number of `MaskState`s. -/
theorem Inv.room_step (h : Inv args launch s) (hw : w < launch.workerCount) :
    launch.base + (Compiled.step workload args w s).device.left.length < args.phaseStateCount := by
  have hroom := h.words.room
  change launch.base + (turn workload args w s.device (s.pcs w)).1.left.length < _
  rcases left_turn workload args w s.device (s.pcs w) with hleft | ⟨place, p, hpc, hleft⟩
  · rwa [hleft]
  · have hfit := h.fits w hw
    rw [hpc] at hfit
    have hlt := (verdict_eq_next hfit.2.symm).1
    rw [hfit.1.1.valid.generation, hfit.1.1.number] at hlt
    rw [hleft, List.length_append, List.length_singleton]
    omega

/-- Every turn keeps a launch sound, as long as the phase word tells the generations apart. -/
theorem Sound.step (h : Sound args launch s) (hvalid : validatePlan workload args launch = true)
    (hw : w < launch.workerCount)
    (hroom : launch.base + (Compiled.step workload args w s).device.left.length <
      kMaximumPhaseStates) : Sound args launch (Compiled.step workload args w s) := by
  have hplan := validPlan_of_validate hvalid
  exact ⟨h.inv.step hvalid hw hroom, h.inv.board_step hplan h.board hw,
    h.inv.history_step hplan h.board hw h.history,
    h.inv.barriers_step hplan h.board h.history hw h.barriers⟩

/-- Every state of a launch with as many phases as the host allows is sound. -/
theorem sound_of_reaches (hvalid : validatePlan workload args launch = true)
    (hready : launch.status = .ready) (hcount : args.phaseStateCount ≤ kMaximumPhaseStates)
    (hreach : Turns.Reaches (step workload args) (· < launch.workerCount) (init launch memory) s) :
    Sound args launch s := by
  have hbase := (validPlan_of_validate hvalid).graph.phaseGeneration_lt
  refine hreach.invariant (fun s w hs hw => hs.step hvalid hw ?_)
    (sound_init hvalid hready (hbase.trans_le hcount))
  exact (hs.inv.room_step hw).trans_le hcount

/-- Every worker has arrived once at every barrier of a phase that is over. -/
theorem Sound.arrivals_eq_one (h : Sound args launch s) {k p i : ℕ} (hover : s.device.Over k)
    (hp : s.device.entered[k]? = some p) (hi : i < args.stageCount p)
    (hw : w < launch.workerCount) : (arrivals s.device.trace k i).count w = 1 := by
  by_cases hearlier : Earlier (k, i) s.device.gate
  · exact (h.barriers.past hp hi hearlier).2 w hw
  -- The last barrier of the phase is about to be opened.
  have hopening : ∃ v < launch.workerCount, ∃ place, s.pcs v = .release place := by
    cases h.inv.position with
    | ready hready _ hleft =>
      rcases hover with hk | ⟨-, hended⟩
      · rw [hleft] at hk
        exact absurd hk (Nat.not_lt_zero _)
      · exact absurd hready hended.1
    | running hrunning hgate =>
      rcases hover with hk | ⟨-, hended⟩
      · exact absurd (.inl (hgate ▸ hk)) hearlier
      · exact absurd hrunning hended.2
    | opening hv hpc => exact ⟨_, hv, _, hpc⟩
    | ended _ hgate =>
      refine absurd (.inl ?_) hearlier
      rw [hgate]
      rcases hover with hk | ⟨rfl, -⟩
      · exact Nat.lt_succ_of_lt hk
      · exact Nat.lt_succ_self _
  obtain ⟨v, hv, place, hpc⟩ := hopening
  have hfit := h.inv.fits v hv
  have hleads : (s.pcs v).role s.device = .leading := by rw [hpc]; rfl
  rw [hpc] at hfit
  obtain ⟨hvalid, hgate, hstatus⟩ := hfit
  have harrived : (s.pcs w).role s.device ≠ .away := by
    by_cases heq : w = v
    · rw [heq, hleads]
      exact nofun
    · rw [(h.inv.gathering.leads v hv hleads).2 w hw heq]
      exact nofun
  obtain ⟨hlast, hk⟩ : place.Last args ∧ k ≤ place.number := by
    rcases hstatus with ⟨-, hrunning, hnumber⟩ | ⟨hlast, hrunning, hnumber⟩ | ⟨hlast, -, hnumber⟩
    · rcases hover with hk | ⟨-, hended⟩
      · refine absurd (.inl ?_) hearlier
        rw [hgate]
        exact hk.trans_eq hnumber.symm
      · exact absurd hrunning hended.2
    · rcases hover with hk | ⟨-, hended⟩
      · exact ⟨hlast, by omega⟩
      · exact absurd hrunning hended.2
    · rcases hover with hk | ⟨rfl, -⟩
      · exact ⟨hlast, by omega⟩
      · exact ⟨hlast, hnumber.ge⟩
  have hsame : (k, i) = s.device.gate := by
    rw [hgate, Place.barrier]
    rw [hgate] at hearlier
    rcases hk.eq_or_lt with rfl | hlt
    · rw [hvalid.program] at hp
      obtain rfl := Option.some.inj hp
      have hlast' : place.stage + 1 = args.stageCount place.program := hlast
      have hge : ¬i < place.stage := fun hlt => hearlier (.inr ⟨rfl, hlt⟩)
      rw [show i = place.stage by omega]
    · exact absurd (.inl hlt) hearlier
  have hcount := h.barriers.current w hw
  rw [← hsame, if_neg harrived] at hcount
  exact hcount

end LightRocm.Graph.Compiled
