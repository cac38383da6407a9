import LightRocm.Lib.Run
import LightRocm.Status

/-!
# Start-up and shutdown

`lr_init` and `lr_shutdown` of the three builds, called by any number of threads.
Each call switches `g_initialized` with one compare-exchange and then works in
stages: calls into the surroundings, a section under `g_devices_mutex`, and the
store that switches the flag back after a failure. Other threads may run between
two stages. What a call set up is named by the number of the call.
-/

namespace LightRocm.Runtime

/-- The two calls. -/
inductive Kind where
  /-- `lr_init`. -/
  | init
  /-- `lr_shutdown`. -/
  | shutdown
  deriving DecidableEq

/-- The status of a call into the surroundings that failed. -/
structure Failure where
  /-- The status. -/
  status : Status
  /-- It is an error. -/
  ne_success : status ≠ .success
  deriving DecidableEq

/-- The variables both calls work on. -/
structure Globals where
  /-- `g_initialized`. -/
  initialized : Bool := false
  /-- The call that filled `g_devices`, perhaps in part; nothing for an empty list. -/
  devices : Option ℕ := none
  /-- The call that found `g_host_agent`. -/
  hostAgent : Option ℕ := none
  /-- The call that opened `g_kfd_session`. -/
  session : Option ℕ := none
  /-- Calls of `hsa_init` that no `hsa_shut_down` has followed. -/
  hsaReferences : ℕ := 0
  deriving DecidableEq

/-- What a call does next. -/
inductive Stage where
  /-- `lr_init` calls `hsa_init`, or it opens a session and looks for the device. -/
  | opening
  /-- `lr_init` fills `g_devices` under the lock. -/
  | filling
  /-- `lr_init` calls `hsa_shut_down` after a failure. -/
  | closing (failure : Failure)
  /-- `lr_shutdown` releases everything under the lock. -/
  | releasing
  /-- `lr_shutdown` calls `hsa_shut_down`. -/
  | leaving
  /-- The call switches the flag back after a failure. -/
  | restoring (failure : Failure)
  deriving DecidableEq

/-- What follows a stage. -/
inductive Progress where
  | next (stage : Stage)
  | done (status : Status)
  deriving DecidableEq

/-- The compare-exchange at the start of a call, if it succeeds. -/
def Globals.switch (kind : Kind) (g : Globals) : Option Globals :=
  match kind with
  | .init => if g.initialized = false then some { g with initialized := true } else none
  | .shutdown => if g.initialized = true then some { g with initialized := false } else none

/-- The status of a call whose compare-exchange failed. -/
def Kind.refusal : Kind → Status
  | .init => .alreadyInitialized
  | .shutdown => .notInitialized

/-- The first stage of a call. -/
def Kind.first : Kind → Stage
  | .init => .opening
  | .shutdown => .releasing

/-- One stage of call number `id`; `failure` is the error of the call into the
surroundings that the stage makes. -/
def advance (backend : Backend) (id : ℕ) (kind : Kind) (stage : Stage) (failure : Option Failure)
    (g : Globals) : Progress × Globals :=
  match stage, backend with
  | .opening, backend =>
    match failure with
    | some failure => (.next (.restoring failure), g)
    | none => (.next .filling,
        if backend = .hsa then { g with hsaReferences := g.hsaReferences + 1 } else g)
  | .filling, .hsa =>
    match failure with
    | some failure => (.next (.closing failure), { g with devices := some id, hostAgent := some id })
    | none => (.done .success, { g with devices := some id, hostAgent := some id })
  | .filling, .lightRocr | .filling, .directKfd =>
    (.done .success, { g with devices := some id, session := some id })
  | .closing failure, _ =>
    (.next (.restoring failure), { g with hsaReferences := g.hsaReferences - 1 })
  | .releasing, .hsa =>
    match failure with
    | some failure => (.done failure.status, { g with
        devices := none, hostAgent := none, hsaReferences := g.hsaReferences - 1 })
    | none => (.next .leaving, { g with devices := none, hostAgent := none })
  | .releasing, .lightRocr | .releasing, .directKfd =>
    match failure with
    | some failure => (.next (.restoring failure), g)
    | none => (.done .success, { g with devices := none, session := none })
  | .leaving, _ =>
    match failure with
    | some failure => (.next (.restoring failure), g)
    | none => (.done .success, { g with hsaReferences := g.hsaReferences - 1 })
  | .restoring failure, _ => (.done failure.status, { g with initialized := decide (kind = .shutdown) })

/-- A thread of the program. -/
inductive Caller where
  /-- The thread is in neither call. -/
  | ready
  /-- The thread is in call number `id`. -/
  | running (id : ℕ) (kind : Kind) (stage : Stage)
  deriving DecidableEq

/-- A call that has returned. -/
structure Returned where
  /-- The number of the call. -/
  id : ℕ
  /-- Which call it was. -/
  kind : Kind
  /-- Its result. -/
  status : Status
  deriving DecidableEq

/-- The variables, the threads, and what is known of the past. -/
structure Process where
  /-- The variables. -/
  globals : Globals
  /-- The threads. -/
  callers : List Caller
  /-- The calls that have returned. -/
  returned : List Returned
  /-- The number of calls made. -/
  calls : ℕ
  /-- A call has been refused since the flag was last switched by a compare-exchange. -/
  contested : Bool
  /-- The last `lr_init` that succeeded, if no `lr_shutdown` has begun since. -/
  up : Option ℕ
  deriving DecidableEq

/-- What happens next. -/
inductive Move where
  /-- Thread `t` makes a call, up to its compare-exchange. -/
  | call (t : ℕ) (kind : Kind)
  /-- Thread `t` runs the next stage of its call. -/
  | resume (t : ℕ) (failure : Option Failure)
  deriving DecidableEq

/-- One step of the program, if it can be taken. -/
def Process.step (backend : Backend) (move : Move) (s : Process) : Option Process :=
  match move with
  | .call t kind =>
    if s.callers[t]? = some .ready then
      match s.globals.switch kind with
      | none => some { s with
          returned := s.returned ++ [⟨s.calls, kind, kind.refusal⟩]
          calls := s.calls + 1
          contested := true }
      | some g => some { s with
          globals := g
          callers := s.callers.set t (.running s.calls kind kind.first)
          calls := s.calls + 1
          contested := false
          up := if kind = .shutdown then none else s.up }
    else none
  | .resume t failure =>
    match s.callers[t]? with
    | some (.running id kind stage) =>
      match advance backend id kind stage failure s.globals with
      | (.next stage, g) => some { s with
          globals := g, callers := s.callers.set t (.running id kind stage) }
      | (.done status, g) => some { s with
          globals := g
          callers := s.callers.set t .ready
          returned := s.returned ++ [⟨id, kind, status⟩]
          up := if kind = .init ∧ status = .success then some id else s.up }
    | _ => none

/-- A program that has made no call yet. -/
def Process.start (threads : ℕ) : Process where
  globals := {}
  callers := List.replicate threads .ready
  returned := []
  calls := 0
  contested := false
  up := none

/-- The stages of a call that runs by itself, with the answers of the surroundings. -/
def runStages (backend : Backend) (id : ℕ) (kind : Kind) :
    Stage → List (Option Failure) → Globals → Option (Status × Globals)
  | _, [], _ => none
  | stage, failure :: answers, g =>
    match advance backend id kind stage failure g with
    | (.next stage, g) => runStages backend id kind stage answers g
    | (.done status, g) => some (status, g)

/-- A call and the answers of the surroundings. -/
structure Request where
  /-- The number of the call. -/
  id : ℕ
  /-- Which call it is. -/
  kind : Kind
  /-- The answers. -/
  answers : List (Option Failure)

/-- A call that runs by itself. -/
def alone (backend : Backend) (request : Request) (g : Globals) : Option (Status × Globals) :=
  match g.switch request.kind with
  | none => some (request.kind.refusal, g)
  | some g => runStages backend request.id request.kind request.kind.first request.answers g

/-- Calls that run one at a time: their results and the variables afterwards. -/
def oneAtATime (backend : Backend) : List Request → Globals → Option (List Returned × Globals)
  | [], g => some ([], g)
  | request :: requests, g => do
    let (status, g) ← alone backend request g
    let (results, g) ← oneAtATime backend requests g
    some (⟨request.id, request.kind, status⟩ :: results, g)

/-- What the last `lr_init` set up is still there. -/
def Process.Kept (backend : Backend) (s : Process) : Prop :=
  ∀ id, s.up = some id → s.globals.initialized = true ∧ s.globals.devices = some id ∧
    match backend with
    | .hsa => s.globals.hostAgent = some id ∧ 0 < s.globals.hsaReferences
    | .lightRocr | .directKfd => s.globals.session = some id

/-- The condition on the calls: a compare-exchange succeeds only while no other call is
in progress, and a call switches the flag back only if no call has been refused since
its own compare-exchange. So calls overlap only with calls that are refused. -/
def NoOverlap (s : Process) (move : Move) : Prop :=
  match move with
  | .call _ kind => s.globals.switch kind ≠ none → ∀ caller ∈ s.callers, caller = .ready
  | .resume t _ => ∀ id kind failure,
      s.callers[t]? = some (.running id kind (.restoring failure)) → s.contested = false

variable {backend : Backend} {s s' : Process}

/-- Calls that run one at a time, some after the others. -/
theorem oneAtATime_append {requests requests' : List Request} {g g₁ g₂ : Globals}
    {results results' : List Returned} (h : oneAtATime backend requests g = some (results, g₁))
    (h' : oneAtATime backend requests' g₁ = some (results', g₂)) :
    oneAtATime backend (requests ++ requests') g = some (results ++ results', g₂) := by
  induction requests generalizing g results with
  | nil =>
    obtain ⟨rfl, rfl⟩ := Prod.mk.inj (Option.some.inj h)
    exact h'
  | cons request requests ih =>
    simp only [oneAtATime, Option.bind_eq_bind, Option.bind_eq_some_iff] at h
    obtain ⟨⟨status, g₃⟩, halone, ⟨rest, g₄⟩, hrest, heq⟩ := h
    obtain ⟨rfl, rfl⟩ := Prod.mk.inj (Option.some.inj heq)
    simp [oneAtATime, halone, ih hrest]

variable {kind : Kind} {refused : List Returned}

/-- Calls that are refused leave the variables alone. -/
theorem oneAtATime_refused {g : Globals} (hg : g.switch kind = none)
    (h : ∀ r ∈ refused, r.kind = kind ∧ r.status = kind.refusal) :
    oneAtATime backend (refused.map fun r => ⟨r.id, r.kind, []⟩) g = some (refused, g) := by
  induction refused with
  | nil => rfl
  | cons r refused ih =>
    obtain ⟨hkind, hstatus⟩ := h r List.mem_cons_self
    have halone : alone backend ⟨r.id, r.kind, []⟩ g = some (r.status, g) := by
      simp [alone, hkind, hg, hstatus]
    have hrest := ih fun r' hr' => h r' (List.mem_cons_of_mem r hr')
    simp [oneAtATime, halone, hrest]

/-- A compare-exchange fails exactly when the flag already has the new value. -/
theorem switch_eq_none_iff {g : Globals} :
    g.switch kind = none ↔ g.initialized = decide (kind = .init) := by
  cases kind <;> simp [Globals.switch]

variable {g g' : Globals}

/-- A compare-exchange that succeeds changes only the flag. -/
theorem switch_eq_some (h : g.switch kind = some g') :
    g' = { g with initialized := decide (kind = .init) } := by
  cases kind <;> obtain ⟨-, rfl⟩ := Run.of_guard h <;> rfl

/-- The stage is one of this call. -/
def Stage.Fits : Stage → Kind → Prop
  | .opening, kind | .filling, kind | .closing _, kind => kind = .init
  | .releasing, kind | .leaving, kind => kind = .shutdown
  | .restoring _, _ => True

variable {failure : Option Failure}

/-- A stage that is not the last leaves the flag alone. -/
theorem advance_next {id : ℕ} {stage stage' : Stage} (hfits : stage.Fits kind)
    (h : advance backend id kind stage failure g = (.next stage', g')) :
    g'.initialized = g.initialized ∧ stage'.Fits kind ∧
      (backend = .hsa → stage' = .filling → 0 < g'.hsaReferences) := by
  cases stage <;> cases backend <;> cases failure <;> simp only [advance, Prod.mk.injEq] at h <;>
    first
      | (obtain ⟨h, rfl⟩ := h; cases h; exact ⟨rfl, trivial, nofun⟩)
      | (obtain ⟨h, rfl⟩ := h; cases h; exact ⟨rfl, hfits, by simp⟩)
      | cases h.1

variable {stage : Stage}

/-- The last stage leaves the flag alone unless it switches it back. -/
theorem advance_done {id : ℕ} {status : Status} (hfits : stage.Fits kind)
    (h : advance backend id kind stage failure g = (.done status, g')) :
    (g'.initialized = g.initialized ∨ ∃ failure, stage = .restoring failure) ∧
      (kind = .init → status = .success → stage = .filling ∧ g'.initialized = g.initialized ∧
        g'.devices = some id ∧ g'.hsaReferences = g.hsaReferences ∧
        match backend with
        | .hsa => g'.hostAgent = some id
        | .lightRocr | .directKfd => g'.session = some id) := by
  cases stage with
  | restoring error =>
    obtain ⟨hstatus, rfl⟩ := Prod.mk.inj h
    refine ⟨Or.inr ⟨error, rfl⟩, fun _ hsuccess => ?_⟩
    exact absurd (hsuccess ▸ Progress.done.inj hstatus) error.ne_success
  | releasing | leaving =>
    obtain rfl : kind = .shutdown := hfits
    refine ⟨Or.inl ?_, nofun⟩
    cases backend <;> cases failure <;> simp only [advance, Prod.mk.injEq] at h <;>
      (obtain ⟨-, rfl⟩ := h; rfl)
  | opening | closing => cases backend <;> cases failure <;> cases h
  | filling =>
    cases backend <;> cases failure <;> simp only [advance, Prod.mk.injEq] at h <;>
      (obtain ⟨-, rfl⟩ := h; exact ⟨Or.inl rfl, fun _ _ => ⟨rfl, rfl, rfl, rfl, rfl⟩⟩)

/-- No call is in progress: what has happened so far are calls that ran one at a time. -/
structure Process.Quiet (backend : Backend) (s : Process) : Prop where
  /-- Nobody is in a call. -/
  ready : ∀ caller ∈ s.callers, caller = .ready
  /-- The calls, one at a time. -/
  explained : ∃ requests results, oneAtATime backend requests {} = some (results, s.globals) ∧
    s.returned.Perm results
  /-- What has been set up is there. -/
  kept : s.Kept backend

/-- Thread `t` is in call number `id`, and some calls have been refused since it began. -/
structure Process.Busy (backend : Backend) (s : Process) (t id : ℕ) (kind : Kind) (stage : Stage)
    (refused : List Returned) : Prop where
  /-- The thread. -/
  caller : s.callers[t]? = some (.running id kind stage)
  /-- Nobody else is in a call. -/
  others : ∀ t' caller, s.callers[t']? = some caller → t' ≠ t → caller = .ready
  /-- The calls before it, one at a time, and its own stages so far. -/
  explained : ∃ requests results g g₁ answers, oneAtATime backend requests {} = some (results, g) ∧
    g.switch kind = some g₁ ∧ s.returned.Perm (results ++ refused) ∧
    ∀ rest, runStages backend id kind kind.first (answers ++ rest) g₁ =
      runStages backend id kind stage rest s.globals
  /-- The calls that have been refused. -/
  refusals : ∀ r ∈ refused, r.kind = kind ∧ r.status = kind.refusal
  /-- Refused calls are noticed. -/
  contested : s.contested = false → refused = []
  /-- The flag is switched. -/
  flag : s.globals.initialized = decide (kind = .init)
  /-- The stage is one of the call. -/
  fits : stage.Fits kind
  /-- `hsa_init` has been called before the devices are filled in. -/
  opened : backend = .hsa → stage = .filling → 0 < s.globals.hsaReferences
  /-- Nothing is up. -/
  up : s.up = none

/-- The invariant of runs without overlap. -/
def Process.Ordered (backend : Backend) (s : Process) : Prop :=
  s.Quiet backend ∨ ∃ t id kind stage refused, s.Busy backend t id kind stage refused

/-- A call that has begun by itself. -/
theorem Process.Quiet.begin (h : s.Quiet backend) {t : ℕ} {g : Globals}
    (ht : s.callers[t]? = some .ready) (hswitch : s.globals.switch kind = some g) :
    ({ s with
      globals := g
      callers := s.callers.set t (.running s.calls kind kind.first)
      calls := s.calls + 1
      contested := false
      up := if kind = .shutdown then none else s.up } : Process).Busy backend t s.calls kind
        kind.first [] := by
  obtain ⟨requests, results, hseq, hperm⟩ := h.explained
  have hlt := (List.getElem?_eq_some_iff.mp ht).1
  have hg := switch_eq_some hswitch
  refine ⟨by simp [hlt], fun t' caller ht' hne => ?_,
    ⟨requests, results, s.globals, g, [], hseq, hswitch, by simpa using hperm, fun _ => rfl⟩,
    nofun, fun _ => rfl, by rw [hg], ?_, ?_, ?_⟩
  · rw [List.getElem?_set_ne hne.symm] at ht'
    exact h.ready caller (List.mem_of_getElem? ht')
  · cases kind <;> rfl
  · cases kind <;> nofun
  · cases kind with
    | shutdown => rfl
    | init =>
      obtain ⟨hflag, -⟩ := Run.of_guard hswitch
      cases hup : s.up with
      | none => rfl
      | some id => rw [(h.kept id hup).1] at hflag; cases hflag

/-- A call that is refused while no other is in progress. -/
theorem Process.Quiet.refuse (h : s.Quiet backend) (hswitch : s.globals.switch kind = none) :
    ({ s with
      returned := s.returned ++ [⟨s.calls, kind, kind.refusal⟩]
      calls := s.calls + 1
      contested := true } : Process).Quiet backend := by
  obtain ⟨requests, results, hseq, hperm⟩ := h.explained
  have hone : oneAtATime backend [⟨s.calls, kind, []⟩] s.globals =
      some ([⟨s.calls, kind, kind.refusal⟩], s.globals) := by
    simp [oneAtATime, alone, hswitch]
  exact ⟨h.ready, ⟨_, _, oneAtATime_append hseq hone, hperm.append_right _⟩, h.kept⟩

/-- A call that is refused while another one is in progress. -/
theorem Process.Busy.refuse {t id : ℕ} {kind kind' : Kind}
    (h : s.Busy backend t id kind stage refused) (hswitch : s.globals.switch kind' = none) :
    ({ s with
      returned := s.returned ++ [⟨s.calls, kind', kind'.refusal⟩]
      calls := s.calls + 1
      contested := true } : Process).Busy backend t id kind stage
        (refused ++ [⟨s.calls, kind', kind'.refusal⟩]) := by
  obtain ⟨requests, results, g, g₁, answers, hseq, hbegin, hperm, hstages⟩ := h.explained
  -- Only a call of the same kind can be refused.
  have hkind : kind' = kind := by
    have hflag := h.flag
    rw [switch_eq_none_iff.mp hswitch] at hflag
    cases kind <;> cases kind' <;> simp_all
  refine { h with explained := ?_, refusals := ?_, contested := nofun }
  · refine ⟨requests, results, g, g₁, answers, hseq, hbegin, ?_, hstages⟩
    rw [← List.append_assoc]
    exact hperm.append_right _
  · intro r hr
    rcases List.mem_append.mp hr with hold | hnew
    · exact h.refusals r hold
    · obtain rfl := List.mem_singleton.mp hnew
      exact ⟨hkind, by rw [hkind]⟩

/-- The next stage of the call in progress. -/
theorem Process.Busy.next {t id : ℕ} {stage stage' : Stage} {g' : Globals}
    (h : s.Busy backend t id kind stage refused)
    (hadvance : advance backend id kind stage failure s.globals = (.next stage', g')) :
    ({ s with globals := g', callers := s.callers.set t (.running id kind stage') } :
      Process).Busy backend t id kind stage' refused := by
  obtain ⟨requests, results, g, g₁, answers, hseq, hbegin, hperm, hstages⟩ := h.explained
  obtain ⟨hflag, hfits, hopened⟩ := advance_next h.fits hadvance
  have hlt := (List.getElem?_eq_some_iff.mp h.caller).1
  refine { h with
    caller := by simp [hlt]
    others := fun t' caller ht' hne => ?_
    explained := ⟨requests, results, g, g₁, answers ++ [failure], hseq, hbegin, hperm, fun rest => ?_⟩
    flag := hflag.trans h.flag
    fits := hfits
    opened := hopened }
  · rw [List.getElem?_set_ne hne.symm] at ht'
    exact h.others t' caller ht' hne
  · rw [List.append_assoc, hstages]
    simp [runStages, hadvance]

/-- The last stage of the call in progress. -/
theorem Process.Busy.done {t id : ℕ} {g' : Globals} {status : Status}
    (h : s.Busy backend t id kind stage refused)
    (hrestore : ∀ error, stage = .restoring error → s.contested = false)
    (hadvance : advance backend id kind stage failure s.globals = (.done status, g')) :
    ({ s with
      globals := g'
      callers := s.callers.set t .ready
      returned := s.returned ++ [⟨id, kind, status⟩]
      up := if kind = .init ∧ status = .success then some id else s.up } : Process).Quiet
        backend := by
  obtain ⟨requests, results, g, g₁, answers, hseq, hbegin, hperm, hstages⟩ := h.explained
  obtain ⟨hflag, hsuccess⟩ := advance_done h.fits hadvance
  have hone : oneAtATime backend [⟨id, kind, answers ++ [failure]⟩] g =
      some ([⟨id, kind, status⟩], g') := by
    have hrun := hstages [failure]
    simp [runStages, hadvance] at hrun
    simp [oneAtATime, alone, hbegin, hrun]
  -- The calls that were refused meanwhile would be refused after this one, too.
  have hrefused : oneAtATime backend (refused.map fun r => ⟨r.id, r.kind, []⟩) g' =
      some (refused, g') := by
    rcases hflag with hflag | ⟨error, herror⟩
    · exact oneAtATime_refused (switch_eq_none_iff.mpr (hflag.trans h.flag)) h.refusals
    · rw [h.contested (hrestore error herror)]
      rfl
  refine ⟨fun caller hcaller => ?_, ⟨_, _,
    oneAtATime_append (oneAtATime_append hseq hone) hrefused, ?_⟩, fun id' hup => ?_⟩
  · obtain ⟨t', ht'⟩ := List.getElem?_of_mem hcaller
    by_cases heq : t' = t
    · subst heq
      have hlt := (List.getElem?_eq_some_iff.mp h.caller).1
      simpa [hlt, eq_comm] using ht'
    · rw [List.getElem?_set_ne (Ne.symm heq)] at ht'
      exact h.others t' caller ht' heq
  · refine (hperm.append_right _).trans ?_
    rw [List.append_assoc, List.append_assoc]
    exact List.perm_append_comm.append_left results
  · by_cases hnew : kind = .init ∧ status = .success
    · obtain ⟨hfilling, hsame, hdevices, hreferences, hrest⟩ := hsuccess hnew.1 hnew.2
      obtain rfl : id = id' := by simpa [hnew] using hup
      refine ⟨hsame.trans (h.flag.trans (by simp [hnew.1])), hdevices, ?_⟩
      cases backend with
      | hsa => exact ⟨hrest, hreferences ▸ h.opened rfl hfilling⟩
      | lightRocr | directKfd => exact hrest
    · simp [hnew, h.up] at hup

/-- Every step without overlap keeps the invariant. -/
theorem Process.Ordered.step (h : s.Ordered backend) {move : Move} (hok : NoOverlap s move)
    (hstep : s.step backend move = some s') : s'.Ordered backend := by
  cases move with
  | call t kind =>
    unfold Process.step at hstep
    dsimp only at hstep
    split at hstep
    · rename_i ht
      cases hswitch : s.globals.switch kind with
      | none =>
        rw [hswitch] at hstep
        obtain rfl := Option.some.inj hstep
        rcases h with hquiet | ⟨t', id, kind', stage, refused, hbusy⟩
        · exact Or.inl (hquiet.refuse hswitch)
        · exact Or.inr ⟨t', id, kind', stage, _, hbusy.refuse hswitch⟩
      | some g =>
        rw [hswitch] at hstep
        obtain rfl := Option.some.inj hstep
        rcases h with hquiet | ⟨t', id, kind', stage, refused, hbusy⟩
        · exact Or.inr ⟨t, s.calls, kind, kind.first, [], hquiet.begin ht hswitch⟩
        · have hready := hok (by simp [hswitch]) _ (List.mem_of_getElem? hbusy.caller)
          cases hready
    · cases hstep
  | resume t failure =>
    unfold Process.step at hstep
    dsimp only at hstep
    split at hstep
    · rename_i id kind stage ht
      rcases h with hquiet | ⟨t', id', kind', stage', refused, hbusy⟩
      · cases hquiet.ready _ (List.mem_of_getElem? ht)
      · obtain rfl : t = t' := by
          by_contra hne
          cases hbusy.others t _ ht hne
        obtain ⟨rfl, rfl, rfl⟩ : id = id' ∧ kind = kind' ∧ stage = stage' := by
          have hsame := Option.some.inj (ht.symm.trans hbusy.caller)
          exact Caller.running.inj hsame
        cases hadvance : advance backend id kind stage failure s.globals with
        | mk progress g =>
          rw [hadvance] at hstep
          cases progress with
          | next stage' =>
            obtain rfl := Option.some.inj hstep
            exact Or.inr ⟨t, id, kind, stage', refused, hbusy.next hadvance⟩
          | done status =>
            obtain rfl := Option.some.inj hstep
            refine Or.inl (hbusy.done (fun error herror => ?_) hadvance)
            exact hok id kind error (herror ▸ ht)
    · cases hstep

/-- A program that has made no call yet is in order. -/
theorem Process.ordered_start (backend : Backend) (threads : ℕ) :
    (Process.start threads).Ordered backend :=
  Or.inl ⟨fun _ hcaller => List.eq_of_mem_replicate hcaller, ⟨[], [], rfl, .refl _⟩, nofun⟩

/-- A call that has begun can succeed, and it leaves the flag as it has switched it. -/
theorem exists_success (backend : Backend) (id : ℕ) (kind : Kind) {g g₁ : Globals}
    (hswitch : g.switch kind = some g₁) :
    ∃ g₂, alone backend ⟨id, kind, [none, none]⟩ g = some (.success, g₂) ∧
      g₂.switch kind = none := by
  have hflag : g₁.initialized = decide (kind = .init) := by rw [switch_eq_some hswitch]
  cases kind <;> cases backend <;>
    refine ⟨_, by simp only [alone, hswitch]; rfl, switch_eq_none_iff.mpr ?_⟩ <;> exact hflag

/-- In every run of the three builds in which calls do not overlap, the results are those
of calls that ran one at a time, in some order, and once no call is in progress so are
the variables. What an `lr_init` that succeeded has set up stays until an `lr_shutdown`
begins. -/
theorem results_one_at_a_time {threads : ℕ} {moves : List Move}
    (hrun : Run.Steps (Process.step backend) NoOverlap (.start threads) moves s) :
    (∃ requests results g, oneAtATime backend requests {} = some (results, g) ∧
      s.returned.Subperm results ∧
      ((∀ caller ∈ s.callers, caller = .ready) → s.returned.Perm results ∧ g = s.globals)) ∧
    s.Kept backend := by
  have hordered : s.Ordered backend :=
    hrun.invariant (fun _ _ _ h hok hstep => h.step hok hstep)
      (Process.ordered_start backend threads)
  rcases hordered with hquiet | ⟨t, id, kind, stage, refused, hbusy⟩
  · obtain ⟨requests, results, hseq, hperm⟩ := hquiet.explained
    exact ⟨⟨requests, results, s.globals, hseq, hperm.subperm, fun _ => ⟨hperm, rfl⟩⟩,
      hquiet.kept⟩
  · obtain ⟨requests, results, g, g₁, answers, hseq, hbegin, hperm, hstages⟩ := hbusy.explained
    -- The call in progress has not returned yet: let it succeed.
    obtain ⟨g₂, hsuccess, hrefuses⟩ := exists_success backend id kind hbegin
    have hone : oneAtATime backend [⟨id, kind, [none, none]⟩] g =
        some ([⟨id, kind, .success⟩], g₂) := by
      simp [oneAtATime, hsuccess]
    have hafter := oneAtATime_append (oneAtATime_append hseq hone)
      (oneAtATime_refused hrefuses hbusy.refusals)
    refine ⟨⟨_, _, g₂, hafter, ?_, fun hready => ?_⟩, fun id' hup => ?_⟩
    · refine hperm.subperm.trans (List.Sublist.subperm ?_)
      exact (List.sublist_append_left results _).append_right refused
    · cases hready _ (List.mem_of_getElem? hbusy.caller)
    · rw [hbusy.up] at hup
      cases hup

/-- One thread starts the runtime up while another one is refused, and the other one shuts it down
while the first is refused. -/
def refusals : List Move :=
  [.call 0 .init, .resume 0 none, .call 1 .init, .resume 0 none, .call 1 .shutdown,
    .resume 1 none, .call 0 .shutdown, .resume 1 none]

theorem results_one_at_a_time_refused : ∃ s,
    Run.Steps (Process.step .hsa) NoOverlap (.start 2) refusals s ∧
    s.returned = [⟨1, .init, .alreadyInitialized⟩, ⟨0, .init, .success⟩,
      ⟨3, .shutdown, .notInitialized⟩, ⟨2, .shutdown, .success⟩] ∧
    ∃ requests results, oneAtATime .hsa requests {} = some (results, s.globals) ∧
      s.returned.Perm results := by
  obtain ⟨s, hrun, hreturned, hready⟩ : ∃ s,
      Run.Steps (Process.step .hsa) NoOverlap (.start 2) refusals s ∧
      s.returned = [⟨1, .init, .alreadyInitialized⟩, ⟨0, .init, .success⟩,
        ⟨3, .shutdown, .notInitialized⟩, ⟨2, .shutdown, .success⟩] ∧
      ∀ caller ∈ s.callers, caller = .ready := by
    refine ⟨_, .cons ?_ rfl (.cons ?_ rfl (.cons ?_ rfl (.cons ?_ rfl (.cons ?_ rfl (.cons ?_ rfl
      (.cons ?_ rfl (.cons ?_ rfl (.nil _)))))))), rfl, by decide⟩
    · exact fun _ => by decide
    · exact fun _ _ _ h => by cases h
    · exact fun h => absurd rfl h
    · exact fun _ _ _ h => by cases h
    · exact fun _ => by decide
    · exact fun _ _ _ h => by cases h
    · exact fun h => absurd rfl h
    · exact fun _ _ _ h => by cases h
  obtain ⟨⟨requests, results, g, hseq, -, hdone⟩, -⟩ := results_one_at_a_time hrun
  obtain ⟨hperm, rfl⟩ := hdone hready
  exact ⟨s, hrun, hreturned, requests, results, hseq, hperm⟩

/-- A shutdown that has switched the flag, and an `lr_init` of another thread that runs to
its end before the shutdown takes the lock. -/
def overlap : List Move :=
  [.call 0 .init, .resume 0 none, .resume 0 none, .call 0 .shutdown, .call 1 .init,
    .resume 1 none, .resume 1 none, .resume 0 none]

/-- The shutdown clears the devices that a later `lr_init` has just set up. -/
def ClearsLaterInit (backend : Backend) : Prop :=
  ∃ s, Run.exec (Process.step backend) overlap (.start 2) = some s ∧
    ⟨2, .init, .success⟩ ∈ s.returned ∧ s.up = some 2 ∧ s.globals.devices = none ∧
    ¬ s.Kept backend

/-- On every backend the shutdown clears the devices that the later `lr_init` has just set up. -/
theorem shutdown_clears_later_init :
    ClearsLaterInit .hsa ∧ ClearsLaterInit .lightRocr ∧ ClearsLaterInit .directKfd := by
  have hlost : ∀ (backend : Backend) (s : Process), s.up = some 2 → s.globals.devices = none →
      ¬ s.Kept backend := by
    intro backend s hup hdevices hkept
    have hlost := (hkept 2 hup).2.1
    rw [hdevices] at hlost
    cases hlost
  refine ⟨?_, ?_, ?_⟩
  all_goals exact ⟨_, rfl, by decide, rfl, rfl, hlost _ _ rfl rfl⟩

end LightRocm.Runtime
