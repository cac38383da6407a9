import LightRocm.Hsakmt.ScratchRuns

/-!
# Safety of scratch leases

Every step keeps what holds of pools, threads and the registry, as long as no call that a destructor
makes fails: nobody can try again what a destructor leaves undone.
-/

namespace LightRocm.Hsakmt

open Tiling

variable {s s' : State} {t p : ℕ} {pool new : Pool} {phase : Phase}

/-! ## References of threads -/

variable {holders : List ℕ}

theorem mem_cons_holders (hphase : phase.pool = some p) (t' : ℕ) :
    t' ∈ t :: holders ↔ if t' = t then phase.pool = some p else t' ∈ holders := by
  by_cases heq : t' = t <;> simp [heq, hphase]

theorem mem_erase_holders (hnodup : holders.Nodup) (hphase : phase.pool ≠ some p) (t' : ℕ) :
    t' ∈ holders.erase t ↔ if t' = t then phase.pool = some p else t' ∈ holders := by
  rw [hnodup.mem_erase_iff]
  by_cases heq : t' = t <;> simp [heq, hphase]

theorem mem_same_holders (hself : t ∈ holders ↔ phase.pool = some p) (t' : ℕ) :
    t' ∈ holders ↔ if t' = t then phase.pool = some p else t' ∈ holders := by
  by_cases heq : t' = t
  · rw [heq, if_pos rfl, hself]
  · rw [if_neg heq]

/-- The locks of the sessions after a thread without one takes or keeps one. -/
theorem Inv.locks_of_ne (h : Inv s) {session t' : ℕ} (hlock : s.stateLock session = some t')
    (hne : t' ≠ t) : (Function.update s.threads t phase t').session = some session := by
  rw [Function.update_of_ne hne]
  exact h.locks hlock

/-- A thread that lets the lock of its session go has no other. -/
theorem Inv.locks_unlock (h : Inv s) {session : ℕ} (hsession : (s.threads t).session = some session)
    {session' t' : ℕ} (hlock : Function.update s.stateLock session none session' = some t') :
    (Function.update s.threads t phase t').session = some session' := by
  by_cases heq : session' = session
  · rw [heq, Function.update_self] at hlock
    cases hlock
  · rw [Function.update_of_ne heq] at hlock
    refine h.locks_of_ne hlock ?_
    rintro rfl
    rw [h.locks hlock] at hsession
    exact heq (Option.some.inj hsession)

/-- A thread without a session lock goes on. -/
theorem Inv.locks_idle (h : Inv s) (hsession : (s.threads t).session = none) {session t' : ℕ}
    (hlock : s.stateLock session = some t') :
    (Function.update s.threads t phase t').session = some session := by
  refine h.locks_of_ne hlock ?_
  rintro rfl
  rw [h.locks hlock] at hsession
  cases hsession

/-- A thread keeps the lock of its session. -/
theorem Inv.locks_keep (h : Inv s) (hsame : phase.session = (s.threads t).session)
    {session t' : ℕ} (hlock : s.stateLock session = some t') :
    (Function.update s.threads t phase t').session = some session := by
  by_cases heq : t' = t
  · rw [heq, Function.update_self, hsame]
    exact heq ▸ h.locks hlock
  · exact h.locks_of_ne hlock heq

/-- An entry that is left after one has been erased. -/
theorem entry_of_erase {entries : ℕ → ℕ → Option ℕ} {session gpu session' gpu' q : ℕ}
    (h : Function.update entries session (Function.update (entries session) gpu none) session'
      gpu' = some q) : entries session' gpu' = some q := by
  by_cases heq : session' = session
  · rw [heq, Function.update_self] at h
    by_cases hgpu : gpu' = gpu
    · rw [hgpu, Function.update_self] at h
      cases h
    · rw [Function.update_of_ne hgpu] at h
      rw [heq, h]
  · rw [Function.update_of_ne heq] at h
    exact h

/-- An entry after one has been added. -/
theorem entry_of_insert {entries : ℕ → ℕ → Option ℕ} {session gpu session' gpu' p q : ℕ}
    (h : Function.update entries session (Function.update (entries session) gpu (some p)) session'
      gpu' = some q) : entries session' gpu' = some q ∨ q = p ∧ gpu' = gpu := by
  by_cases heq : session' = session
  · rw [heq, Function.update_self] at h
    by_cases hgpu : gpu' = gpu
    · rw [hgpu, Function.update_self] at h
      exact .inr ⟨(Option.some.inj h).symm, hgpu⟩
    · rw [Function.update_of_ne hgpu] at h
      exact .inl (by rw [heq, h])
  · rw [Function.update_of_ne heq] at h
    exact .inl h

/-! ## Steps -/

/-- Without a reference there is no lease and no holder. -/
theorem expired_iff : pool.expired = true ↔ pool.leases = [] ∧ pool.holders = [] := by
  simp [Pool.expired]

theorem Inv.leave (h : Inv s) (ht : s.threads t = .leaving p) (hp : s.pools p = some pool) :
    Inv (s.leave t p pool) := by
  have hnodup := h.nodup hp
  have hok := h.ok hp
  unfold State.leave
  refine @Inv.change _ _ _ _ _ { pool with holders := pool.holders.erase t } _ h ?_
    ⟨rfl, rfl, rfl, rfl, fun hentry => hentry, h.locks_idle (by rw [ht]; rfl)⟩
  refine
    { current := hp
      ok := { hok with }
      gpuNodeId := rfl
      reserved := fun hheld => hheld
      nodup := hnodup.erase t
      holders := mem_erase_holders hnodup (by split_ifs <;> rintro ⟨⟩)
      move := by rw [ht]; split_ifs; exacts [.last, .leave]
      lock := fun t' request _ _ hlock hheld => ⟨hlock, hheld⟩
      locked := fun request q hq => by split_ifs at hq
      valid := fun request hq => by split_ifs at hq
      expired := ?expired
      dead := ?dead
      live := ?live }
  case expired =>
    intro hexpired
    obtain ⟨hleases, hholders⟩ := expired_iff.mp hexpired
    exact expired_iff.mpr ⟨hleases, by rw [hholders]; rfl⟩
  case dead =>
    intro hq
    split_ifs at hq with hexpired
    exact hexpired
  case live =>
    intro _
    cases hexpired : Pool.expired { pool with holders := pool.holders.erase t } with
    | false => exact .inl rfl
    | true => exact .inr (.inl (if_pos rfl))

theorem Inv.destroy (h : Inv s) (ht : s.threads t = .destroying p) (hp : s.pools p = some pool) :
    Inv (s.destroy t p pool true) := by
  obtain ⟨pool', hp', hexpired⟩ := h.dead ht
  obtain rfl : pool = pool' := Option.some.inj (hp.symm.trans hp')
  obtain ⟨hleases, hholders⟩ := expired_iff.mp hexpired
  have hactive : pool.activeLeases = 0 := by
    rw [(h.ok hp).counted, hleases]
    rfl
  have hnodup := h.nodup hp
  have hok := (h.ok hp).releaseReservation hactive true
  obtain ⟨reserved, frees, hframe, hreserved, hfreed, hsuccess⟩ := pool.releaseReservation_frame
    true
  unfold State.destroy
  rw [hframe] at hok ⊢
  refine @Inv.change _ _ _ _ _ { pool with reserved, frees } _ h ?_
    ⟨rfl, rfl, rfl, rfl, fun hentry => hentry, h.locks_idle (by rw [ht]; rfl)⟩
  have hno (t' : ℕ) : t' ∉ pool.holders := by
    rw [hholders]
    exact List.not_mem_nil
  exact
    { current := hp
      ok := hok
      gpuNodeId := rfl
      reserved := hreserved
      nodup := hnodup
      holders := mem_same_holders (iff_of_false (hno t) (by rintro ⟨⟩))
      move := by rw [ht]; exact .destroy
      lock := fun t' request _ ht' _ _ => absurd ((h.holders hp t').mpr (by rw [ht']; rfl)) (hno t')
      locked := fun request q hq => by cases hq
      valid := fun _ hq => by cases hq
      expired := fun _ => hexpired
      dead := fun hq => by cases hq
      live := fun hheld => absurd hheld (by simp [hfreed (hsuccess rfl)]) }

variable {request : Request}

theorem Inv.carve (h : Inv s) {outcome : AcquireOutcome} (ht : s.threads t = .locked request p)
    (hp : s.pools p = some pool) (hcarve : s.carve t p request pool outcome = some s') :
    Inv s' := by
  obtain ⟨⟨new, error, kept⟩, hacquire, rfl⟩ := Option.map_eq_some_iff.mp hcarve
  obtain ⟨hlock, hheld⟩ := h.locked ht hp
  have hacquired := (h.ok hp).acquire hheld (h.valid (by rw [ht]; rfl)) hacquire
  have hmem : t ∈ pool.holders := (h.holders hp t).mpr (by rw [ht]; rfl)
  have hnodup := h.nodup hp
  refine @Inv.change _ _ _ _ _ new _ h ?_
    ⟨rfl, rfl, rfl, rfl, fun hentry => hentry, h.locks_idle (by rw [ht]; rfl)⟩
  have hnew : new.expired = false := by
    rw [Bool.eq_false_iff, Ne, expired_iff, hacquired.holders]
    rintro ⟨hleases, hholders⟩
    cases kept with
    | true =>
      rw [if_pos rfl] at hholders
      rw [hholders] at hmem
      cases hmem
    | false => exact hacquired.leases rfl hleases
  refine
    { current := hp
      ok := hacquired.ok
      gpuNodeId := hacquired.gpuNodeId
      reserved := fun _ => hheld
      nodup := ?nodup
      holders := ?holders
      move := by rw [ht]; cases kept; exacts [.acquire request, .fail request]
      lock := fun t' _ hne _ hlock' _ => absurd (Option.some.inj (hlock'.symm.trans hlock)) hne
      locked := fun request q hq => by cases kept <;> cases hq
      valid := fun _ hq => by cases kept <;> cases hq
      expired := fun hexpired => ?expired
      dead := fun hq => by cases kept <;> cases hq
      live := fun _ => .inl hnew }
  case nodup =>
    rw [hacquired.holders]
    split_ifs
    · exact hnodup
    · exact hnodup.erase t
  case holders =>
    rw [hacquired.holders]
    cases kept with
    | true => exact mem_same_holders (iff_of_true hmem rfl)
    | false => exact mem_erase_holders hnodup (by rintro ⟨⟩)
  case expired =>
    rw [(expired_iff.mp hexpired).2] at hmem
    cases hmem

theorem Inv.release (h : Inv s) {index : ℕ} {destroyed unmapped freed : Bool}
    (ht : s.threads t = .idle) (hp : s.pools p = some pool) (hlock : pool.lock = none)
    (hcondition : destroyed = true → unmapped = true)
    (hrelease : s.release t p index pool destroyed unmapped freed = some s') : Inv s' := by
  obtain ⟨⟨new, error⟩, hsection, rfl⟩ := Option.map_eq_some_iff.mp hrelease
  have hreleased := (h.ok hp).release hsection
  have hnot : t ∉ pool.holders := fun hmem => by
    have hpool := (h.holders hp t).mp hmem
    rw [ht] at hpool
    cases hpool
  have hsome : pool.leases ≠ [] := by
    intro hnil
    unfold Pool.release at hsection
    rw [hnil] at hsection
    cases hsection
  dsimp only
  split_ifs with hgone
  · have hdone : (decide (error = .none) || unmapped) = true := by
      obtain hnone | hdestroyed := hgone
      · simp [hnone]
      · simp [hcondition hdestroyed]
    rw [hdone] at hreleased
    refine @Inv.change _ _ _ _ _ (new.forget t index) _ h ?_
      ⟨rfl, rfl, rfl, rfl, fun hentry => hentry, h.locks_idle (by rw [ht]; rfl)⟩
    have hholders : (new.forget t index).holders = t :: pool.holders := by
      rw [← hreleased.holders]
      rfl
    exact
      { current := hp
        ok := hreleased.forget t
        gpuNodeId := hreleased.gpuNodeId
        reserved := hreleased.reserved
        nodup := by rw [hholders]; exact (h.nodup hp).cons hnot
        holders := by rw [hholders]; exact mem_cons_holders rfl
        move := by rw [ht]; exact .release
        lock := fun t' request _ _ hlock' _ => by rw [hlock] at hlock'; cases hlock'
        locked := fun request q hq => by cases hq
        valid := fun _ hq => by cases hq
        expired := fun hexpired => absurd (expired_iff.mp hexpired).1 hsome
        dead := fun hq => by cases hq
        live := fun _ => .inl (by simp [Pool.expired, hholders]) }
  · have hleases : new.leases ≠ [] := fun hnil => by
      have hlength := hreleased.leases
      rw [hnil] at hlength
      exact hsome (List.eq_nil_of_length_eq_zero hlength.symm)
    have hidle : s.threads = Function.update s.threads t .idle := by
      rw [← ht, Function.update_eq_self]
    refine @Inv.change _ _ t _ _ new .idle h ?_
      ⟨rfl, rfl, hidle, rfl, fun hentry => hentry, h.locks⟩
    exact
      { current := hp
        ok := hreleased.ok
        gpuNodeId := hreleased.gpuNodeId
        reserved := hreleased.reserved
        nodup := by rw [hreleased.holders]; exact h.nodup hp
        holders := by
          rw [hreleased.holders]
          exact mem_same_holders (iff_of_false hnot (by rintro ⟨⟩))
        move := by rw [ht]; exact .keep
        lock := fun t' request _ _ hlock' _ => by rw [hlock] at hlock'; cases hlock'
        locked := fun request q hq => by cases hq
        valid := fun _ hq => by cases hq
        expired := fun hexpired => absurd (expired_iff.mp hexpired).1 hsome
        dead := fun hq => by cases hq
        live := fun _ => .inl (by simp [Pool.expired, hleases]) }

theorem Inv.lockPool (h : Inv s) (ht : s.threads t = .waiting request p)
    (hp : s.pools p = some pool) (hlock : pool.lock = none) :
    Inv (s.lockPool t p request pool) := by
  have hmem : t ∈ pool.holders := (h.holders hp t).mpr (by rw [ht]; rfl)
  have hnodup := h.nodup hp
  have hok := h.ok hp
  have hsession : (s.threads t).session = some request.session := by rw [ht]; rfl
  have hexpired : pool.expired ≠ true := fun hexpired => by
    rw [(expired_iff.mp hexpired).2] at hmem
    cases hmem
  have hvalid : request.Valid := h.valid (by rw [ht]; rfl)
  unfold State.lockPool
  split_ifs with hgone hcapacity
  · have hfreed : pool.reserved = false := hgone.elim hok.retired id
    refine @Inv.change _ _ _ _ _ { pool with holders := pool.holders.erase t } _ h ?_
      ⟨rfl, rfl, rfl, rfl, ?_, ?_⟩
    · exact
        { current := hp
          ok := { hok with }
          gpuNodeId := rfl
          reserved := fun hheld => hheld
          nodup := hnodup.erase t
          holders := mem_erase_holders hnodup (by rintro ⟨⟩)
          move := by rw [ht]; exact .retry request
          lock := fun t' request _ _ hlock' _ => by rw [hlock] at hlock'; cases hlock'
          locked := fun request q hq => by cases hq
          valid := fun _ hq => by cases hq
          expired := fun hexpired' => absurd hexpired' hexpired
          dead := fun hq => by cases hq
          live := fun hheld => absurd hheld (by simp [hfreed]) }
    · exact entry_of_erase
    · exact @Inv.locks_keep _ _ (.reserving request) h hsession.symm
  · have hsame : s.pools = Function.update s.pools p (some pool) := by
      rw [← hp, Function.update_eq_self]
    have hregistry : s.registry = (s.put p pool pool).registry := by
      simp [State.put]
    refine @Inv.change _ _ _ _ _ pool _ h ?_
      ⟨hsame, hregistry, rfl, rfl, fun hentry => hentry, h.locks_unlock hsession⟩
    exact
      { current := hp
        ok := hok
        gpuNodeId := rfl
        reserved := fun hheld => hheld
        nodup := hnodup
        holders := mem_same_holders (iff_of_true hmem rfl)
        move := by rw [ht]; exact .refuse request
        lock := fun t' request _ _ hlock' _ => by rw [hlock] at hlock'; cases hlock'
        locked := fun request q hq => by cases hq
        valid := fun _ hq => by cases hq
        expired := fun hexpired' => absurd hexpired' hexpired
        dead := fun hq => by cases hq
        live := fun _ => .inl (Bool.eq_false_iff.mpr hexpired) }
  · refine @Inv.change _ _ _ _ _ { pool with lock := some t } _ h ?_
      ⟨rfl, rfl, rfl, rfl, fun hentry => hentry, h.locks_unlock hsession⟩
    exact
      { current := hp
        ok := { hok with }
        gpuNodeId := rfl
        reserved := fun hheld => hheld
        nodup := hnodup
        holders := mem_same_holders (iff_of_true hmem rfl)
        move := by rw [ht]; exact .lock request
        lock := fun t' request _ _ hlock' _ => by rw [hlock] at hlock'; cases hlock'
        locked := fun request q _ => ⟨rfl, by simpa using fun hnot => hgone (.inr hnot)⟩
        valid := fun _ hq => by cases hq
        expired := fun hexpired' => absurd hexpired' hexpired
        dead := fun hq => by cases hq
        live := fun _ => .inl (Bool.eq_false_iff.mpr hexpired) }

/-- A thread takes the lock of a session. -/
theorem Inv.locks_take (h : Inv s) {session : ℕ} (hidle : (s.threads t).session = none)
    (hphase : phase.session = some session) {session' t' : ℕ}
    (hlock : Function.update s.stateLock session (some t) session' = some t') :
    (Function.update s.threads t phase t').session = some session' := by
  by_cases heq : session' = session
  · rw [heq, Function.update_self] at hlock
    cases hlock
    rw [Function.update_self, hphase, heq]
  · rw [Function.update_of_ne heq] at hlock
    exact h.locks_idle hidle hlock

theorem Inv.find (h : Inv s) (ht : s.threads t = .idle) (hvalid : request.Valid) :
    Inv (s.find t request) := by
  have hidle : (s.threads t).session = none := by rw [ht]; rfl
  have hnone : (s.threads t).pool = none := by rw [ht]; rfl
  unfold State.find
  cases hfound : (s.scratchPools request.session request.gpuNodeId).bind fun p =>
      ((s.pools p).filter fun pool => !pool.expired).map (p, ·) with
  | none =>
    refine @Inv.rephase _ _ _ (.reserving request) h
      { pools := rfl, nextPool := rfl, scratchPools := rfl, threads := rfl
        registry := fun gpu => ?registry
        stateLock := h.locks_take hidle rfl
        old := hnone
        notDestroying := fun q hq => by rw [ht] at hq; cases hq
        new := rfl
        notDestroying' := fun q hq => by cases hq
        valid := fun request' hq => by cases hq; exact hvalid
        claims := fun gpu hclaim => ?claims }
    case registry =>
      rw [ht]
      simp [State.proceed]
    case claims => exact absurd hclaim Phase.not_claims_reserving
  | some found =>
    obtain ⟨p, hentry, hfilter⟩ := Option.bind_eq_some_iff.mp hfound
    obtain ⟨pool, hpool, rfl⟩ := Option.map_eq_some_iff.mp hfilter
    obtain ⟨hp, hlive⟩ := Option.filter_eq_some_iff.mp hpool
    have hexpired : pool.expired ≠ true := by simpa using hlive
    have hnot : t ∉ pool.holders := fun hmem => by
      have hpool := (h.holders hp t).mp hmem
      rw [hnone] at hpool
      cases hpool
    have hok := h.ok hp
    refine @Inv.change _ _ _ _ _ { pool with holders := t :: pool.holders } (.waiting request p) h
      ?_
      ⟨rfl, rfl, rfl, rfl, fun hentry => hentry, h.locks_take hidle rfl⟩
    exact
      { current := hp
        ok := { hok with }
        gpuNodeId := rfl
        reserved := fun hheld => hheld
        nodup := (h.nodup hp).cons hnot
        holders := mem_cons_holders rfl
        move := by rw [ht]; exact .find request
        lock := fun t' request _ _ hlock hheld => ⟨hlock, hheld⟩
        locked := fun request q hq => by cases hq
        valid := fun request' hq => by cases hq; exact hvalid
        expired := fun hexpired' => absurd hexpired' hexpired
        dead := fun hq => by cases hq
        live := fun _ => .inl (by simp [Pool.expired]) }

/-- A thread without a pool and without a claim gives up. -/
theorem Inv.giveUp (h : Inv s) (ht : s.threads t = .reserving request) (results : ℕ → MemoryError) :
    Inv { s with
      stateLock := Function.update s.stateLock request.session none
      results
      threads := Function.update s.threads t .idle } := by
  refine @Inv.rephase _ _ _ .idle h
    { pools := rfl, nextPool := rfl, scratchPools := rfl, threads := rfl
      registry := fun gpu => ?registry
      stateLock := h.locks_unlock (by rw [ht]; rfl)
      old := by rw [ht]; rfl
      notDestroying := fun q hq => by rw [ht] at hq; cases hq
      new := rfl
      notDestroying' := fun q hq => by cases hq
      valid := fun request' hq => by cases hq
      claims := fun gpu hclaim => ?claims }
  case registry =>
    rw [ht]
    simp
  case claims => exact absurd hclaim Phase.not_claims_idle

theorem Inv.reserve (h : Inv s) (ht : s.threads t = .reserving request) (stored : Bool) :
    Inv (s.reserve t request stored) := by
  unfold State.reserve
  split_ifs with htaken hstored
  · exact h.giveUp ht _
  · exact h.giveUp ht _
  · refine @Inv.rephase _ _ _ (.allocating request) h
      { pools := rfl, nextPool := rfl, scratchPools := rfl, threads := rfl
        registry := fun gpu => ?registry
        stateLock := @Inv.locks_keep _ _ (.allocating request) h (by rw [ht]; rfl)
        old := by rw [ht]; rfl
        notDestroying := fun q hq => by rw [ht] at hq; cases hq
        new := rfl
        notDestroying' := fun q hq => by cases hq
        valid := fun request' hq => by cases hq; exact h.valid (by rw [ht]; rfl)
        claims := ?claims }
    case registry =>
      rw [ht, Phase.claims_allocating]
      by_cases hgpu : gpu = request.gpuNodeId
      · simp [State.proceed, hgpu]
      · simp [State.proceed, Function.update_of_ne, hgpu, Ne.symm hgpu]
    case claims =>
      intro gpu hclaim
      rw [← Phase.claims_allocating.mp hclaim]
      exact Bool.eq_false_iff.mpr htaken

theorem Pool.fresh_ok (hvalid : request.Valid) {address : ℕ}
    (hspace : address + request.poolSize ≤ 2 ^ 64) (lock : Option ℕ) (holders : List ℕ) :
    { Pool.fresh request address with lock, holders }.Ok where
  tiles := ⟨rfl, Nat.pos_of_ne_zero fun hzero => hvalid (.inl hzero), Nat.zero_add _⟩
  merged := List.isChain_singleton _
  active := rfl
  counted := rfl
  space := hspace
  retired := by rintro ⟨⟩
  reserved := fun _ => rfl
  range := by rintro lease ⟨⟩
  unmapped := by rintro lease ⟨⟩
  apart := .nil
  orphans := rfl
  frees := by rintro mapped ⟨⟩

/-- A reservation without a pool is freed by one of two attempts. -/
theorem Pool.Ok.discard {address : ℕ} (h : (Pool.fresh request address).Ok)
    (freed freedAgain : Bool) : ((Pool.fresh request address).discard freed freedAgain).Ok ∧
      ((Pool.fresh request address).discard freed freedAgain).gpuNodeId = request.gpuNodeId ∧
      ((Pool.fresh request address).discard freed freedAgain).holders = [] ∧
      ((Pool.fresh request address).discard freed freedAgain).reserved =
        !(freed || freedAgain) := by
  refine ⟨?_, ?_, ?_, ?_⟩
  · have hfirst := h.releaseReservation rfl freed
    exact hfirst.releaseReservation (by cases freed <;> rfl) freedAgain
  all_goals cases freed <;> cases freedAgain <;> rfl

theorem Inv.allocate (h : Inv s) {outcome : AllocateOutcome}
    (ht : s.threads t = .allocating request) (hpossible : outcome.Possible request.poolSize)
    (hcondition : outcome.made = true ∧ outcome.emplaced = true ∧ outcome.published = true ∨
      outcome.freed = true ∨ outcome.freedAgain = true) :
    Inv (s.allocate t request outcome) := by
  have hvalid : request.Valid := h.valid (by rw [ht]; rfl)
  have hsession : (s.threads t).session = some request.session := by rw [ht]; rfl
  unfold State.allocate
  cases haddress : outcome.address with
  | none =>
    refine @Inv.rephase _ _ _ .idle h
      { pools := rfl, nextPool := rfl, scratchPools := rfl, threads := rfl
        registry := fun gpu => ?registry
        stateLock := h.locks_unlock hsession
        old := by rw [ht]; rfl
        notDestroying := fun q hq => by rw [ht] at hq; cases hq
        new := rfl
        notDestroying' := fun q hq => by cases hq
        valid := fun request' hq => by cases hq
        claims := ?claims }
    case registry =>
      rw [ht, Phase.claims_allocating]
      by_cases hgpu : gpu = request.gpuNodeId
      · simp [State.proceed, State.result, hgpu]
      · simp [State.proceed, State.result, Function.update_of_ne, State.unlock, hgpu, Ne.symm hgpu]
    case claims => exact fun gpu hclaim => absurd hclaim Phase.not_claims_idle
  | some address =>
    obtain ⟨-, hspace⟩ := hpossible address haddress
    have hfresh := Pool.fresh_ok hvalid hspace
    dsimp only
    split_ifs with hmade
    · refine @Inv.insert _ _ _ { Pool.fresh request address with lock := some t, holders := [t] }
        (.locked request s.nextPool) request h
        { pools := rfl, nextPool := rfl, threads := rfl
          scratchPools := ?entries
          registry := fun gpu => ?registry
          stateLock := h.locks_unlock hsession
          old := ht
          ok := hfresh _ _
          gpuNodeId := rfl
          outcome := .inr ⟨rfl, rfl, rfl, rfl⟩ }
      case registry => exact ⟨fun hgpu => ⟨hgpu, fun _ => rfl⟩, fun hgpu => hgpu.1⟩
      case entries =>
        intro session gpu q hentry
        exact entry_of_insert hentry
    · have hfreed : (outcome.freed || outcome.freedAgain) = true := by
        simpa using hcondition.resolve_left hmade
      have hpool : (Pool.fresh request address).Ok := hfresh none []
      obtain ⟨hok, hgpuNodeId, hholders, hreserved⟩ :=
        hpool.discard outcome.freed outcome.freedAgain
      rw [hfreed] at hreserved
      refine @Inv.insert _ _ _
        ((Pool.fresh request address).discard outcome.freed outcome.freedAgain) .idle request h
        { pools := rfl, nextPool := rfl, threads := rfl
          scratchPools := fun hentry => .inl hentry
          registry := fun gpu => ?registry
          stateLock := h.locks_unlock hsession
          old := ht
          ok := hok
          gpuNodeId := hgpuNodeId
          outcome := .inl ⟨rfl, hholders, hreserved⟩ }
      case registry =>
        have hheld : (Pool.fresh request address).reserved = true := rfl
        by_cases hgpu : gpu = request.gpuNodeId
        · simp [State.proceed, State.result, State.put, hheld, hreserved, hgpuNodeId, hgpu]
        · simp [State.proceed, State.result, State.put, State.unlock, hheld, hreserved, hgpuNodeId,
            Function.update_of_ne, hgpu]

/-! ## Runs -/

/-- No call of a destructor fails: the unmap call of a lease that is destroyed, and the last call
that frees the reservation of a pool. -/
def Settled : Label → Prop
  | .allocate _ outcome => outcome.made = true ∧ outcome.emplaced = true ∧ outcome.published = true
    ∨
      outcome.freed = true ∨ outcome.freedAgain = true
  | .release _ _ _ destroyed unmapped _ => destroyed = true → unmapped = true
  | .destroy _ freed => freed = true
  | .find _ _ | .lock _ | .reserve _ _ | .carve _ _ | .leave _ => True

theorem Inv.initial : Inv State.initial where
  ok := by rintro p pool ⟨⟩
  fresh := fun _ => rfl
  known := by rintro t p ⟨⟩
  nodup := by rintro p pool ⟨⟩
  holders := by rintro p pool ⟨⟩
  locked := by rintro t request p pool ⟨⟩
  valid := by rintro t request ⟨⟩
  dead := by rintro t p ⟨⟩
  registered := by rintro p pool ⟨⟩
  allocating := by rintro t request ⟨⟩
  one := by rintro p q pool pool' ⟨⟩
  apart := by rintro t request p pool ⟨⟩
  alone := by rintro t t' request request' ⟨⟩
  owned := by rintro gpu ⟨⟩
  live := by rintro p pool ⟨⟩
  entries := by rintro session gpu p ⟨⟩
  locks := by rintro session t ⟨⟩

/-- Every step keeps what holds. -/
theorem Inv.preserved {label : Label} (h : Inv s) (hsettled : Settled label)
    (hstep : step label s = some s') : Inv s' := by
  cases label with
  | find t request =>
    dsimp only [step] at hstep
    split at hstep
    · next ht =>
      obtain ⟨hguard, rfl⟩ := Run.of_guard hstep
      exact h.find ht hguard.1
    · cases hstep
  | lock t =>
    dsimp only [step] at hstep
    split at hstep
    · next request p ht =>
      obtain ⟨pool, hpool, rfl⟩ := Option.map_eq_some_iff.mp hstep
      obtain ⟨hp, hlock⟩ := Option.filter_eq_some_iff.mp hpool
      exact h.lockPool ht hp (of_decide_eq_true hlock)
    · cases hstep
  | reserve t stored =>
    dsimp only [step] at hstep
    split at hstep
    · next request ht =>
      cases hstep
      exact h.reserve ht stored
    · cases hstep
  | allocate t outcome =>
    dsimp only [step] at hstep
    split at hstep
    · next request ht =>
      obtain ⟨hpossible, rfl⟩ := Run.of_guard hstep
      exact h.allocate ht hpossible hsettled
    · cases hstep
  | carve t outcome =>
    dsimp only [step] at hstep
    split at hstep
    · next request p ht =>
      obtain ⟨pool, hp, hcarve⟩ := Option.bind_eq_some_iff.mp hstep
      exact h.carve ht hp hcarve
    · cases hstep
  | release t p index destroyed unmapped freed =>
    dsimp only [step] at hstep
    split at hstep
    · next ht =>
      obtain ⟨pool, hpool, hrelease⟩ := Option.bind_eq_some_iff.mp hstep
      obtain ⟨hp, hlock⟩ := Option.filter_eq_some_iff.mp hpool
      exact h.release ht hp (of_decide_eq_true hlock) hsettled hrelease
    · cases hstep
  | leave t =>
    dsimp only [step] at hstep
    split at hstep
    · next p ht =>
      obtain ⟨pool, hp, rfl⟩ := Option.map_eq_some_iff.mp hstep
      exact h.leave ht hp
    · cases hstep
  | destroy t freed =>
    dsimp only [step] at hstep
    split at hstep
    · next p ht =>
      obtain ⟨pool, hp, rfl⟩ := Option.map_eq_some_iff.mp hstep
      obtain rfl : freed = true := hsettled
      exact h.destroy ht hp
    · cases hstep

/-- A call of the thread for the GPU has not ended. -/
def State.Busy (s : State) (gpu t : ℕ) : Prop :=
  (s.threads t).Claims gpu ∨ ∃ p pool,
    ((s.threads t).pool = some p ∨ s.threads t = .destroying p) ∧ s.pools p = some pool ∧
      pool.gpuNodeId = gpu

/-- A pool to which nobody refers. -/
theorem Inv.expired_of_unused (h : Inv s) (hp : s.pools p = some pool) (hleases : pool.leases = [])
    (hidle : ∀ t, ¬s.Busy pool.gpuNodeId t) : pool.expired = true := by
  refine expired_iff.mpr ⟨hleases, List.eq_nil_iff_forall_not_mem.mpr fun t hmem => ?_⟩
  exact hidle t (.inr ⟨p, pool, .inl ((h.holders hp t).mp hmem), hp, rfl⟩)

/-- A GPU without leases and calls is not registered. -/
theorem Inv.unregistered (h : Inv s) {gpu : ℕ}
    (hleases : ∀ p pool, s.pools p = some pool → pool.gpuNodeId = gpu → pool.leases = [])
    (hidle : ∀ t, ¬s.Busy gpu t) : s.registry gpu = false := by
  rw [Bool.eq_false_iff]
  intro hgpu
  obtain ⟨p, pool, hp, hheld, rfl⟩ | ⟨t, request, ht, heq⟩ := h.owned hgpu
  · obtain hlive | ⟨t, ht⟩ := h.live hp hheld
    · rw [h.expired_of_unused hp (hleases p pool hp rfl) hidle] at hlive
      cases hlive
    · exact hidle t (.inr ⟨p, pool, .inr ht, hp, rfl⟩)
  · exact hidle t (.inl ⟨request, ht, heq⟩)

/-- A GPU without leases and calls can be reserved. -/
theorem Inv.reservable (h : Inv s) (hvalid : request.Valid)
    (hleases : ∀ p pool, s.pools p = some pool → pool.gpuNodeId = request.gpuNodeId →
      pool.leases = [])
    (hbusy : ∀ t, ¬s.Busy request.gpuNodeId t) (ht : s.threads t = .idle)
    (hlock : s.stateLock request.session = none) :
    ∃ s', Run.exec step [.find t request, .reserve t true] s = some s' ∧
      s'.threads t = .allocating request := by
  have hregistry := h.unregistered hleases hbusy
  have hfound : (s.scratchPools request.session request.gpuNodeId).bind (fun p =>
      ((s.pools p).filter fun pool => !pool.expired).map (p, ·)) = none := by
    rw [Option.bind_eq_none_iff]
    intro p hentry
    obtain ⟨pool, hp, hgpu⟩ := h.entries hentry
    rw [hp, Option.map_eq_none_iff, Option.filter_some,
      h.expired_of_unused hp (hleases p pool hp hgpu) (hgpu ▸ hbusy)]
    rfl
  have hfind : s.find t request = { s with
      stateLock := Function.update s.stateLock request.session (some t)
      threads := Function.update s.threads t (.reserving request) } := by
    unfold State.find
    rw [hfound]
    rfl
  have hstep : step (.find t request) s = some (s.find t request) := by
    dsimp only [step]
    rw [ht]
    exact if_pos ⟨hvalid, hlock⟩
  have hreserving : (s.find t request).threads t = .reserving request := by
    rw [hfind]
    exact Function.update_self ..
  have hfree : (s.find t request).registry request.gpuNodeId ≠ true := by
    rw [hfind]
    exact Bool.eq_false_iff.mp hregistry
  refine ⟨(s.find t request).reserve t request true, ?_, ?_⟩
  · unfold Run.exec
    rw [hstep]
    dsimp only [Option.bind_some, Run.exec, step]
    rw [hreserving]
    rfl
  · unfold State.reserve
    rw [if_neg hfree, if_neg (by decide)]
    exact Function.update_self ..

/-- **Scratch leases.** In every run without a failed call of a destructor: the ranges of a pool
partition it, no two free ranges are neighbours, the active leases are as many as the used ranges;
leases that have a range are in the reservation, aligned and disjoint; a reservation is freed only
when nothing is mapped; a GPU has at most one reservation; and a GPU without leases and calls can
be reserved. -/
theorem scratch_reservations_sound {labels : List Label}
    (hrun : Run.Steps step (fun _ => Settled) State.initial labels s) :
    (∀ p pool, s.pools p = some pool →
      Tiles 0 pool.ranges pool.capacity ∧ Merged pool.ranges ∧
      pool.activeLeases = (used pool.ranges).length ∧
      (∀ lease ∈ pool.leases, lease.rangeReturned = false → pool.reserved = true ∧
        lease.offset + lease.size ≤ pool.capacity ∧ pool.base + pool.capacity ≤ 2 ^ 64 ∧
        (pool.base + lease.offset) % lease.alignment = 0) ∧
      (∀ lease ∈ pool.leases, lease.mapped = true → lease.rangeReturned = false) ∧
      (pool.leases.Pairwise fun a b => a.rangeReturned = false → b.rangeReturned = false →
        a.offset + a.size ≤ b.offset ∨ b.offset + b.size ≤ a.offset) ∧
      ∀ mapped ∈ pool.frees, mapped = 0) ∧
    (∀ p q pool pool', s.pools p = some pool → s.pools q = some pool' → pool.reserved = true →
      pool'.reserved = true → pool.gpuNodeId = pool'.gpuNodeId → p = q) ∧
    ∀ gpu, (∀ p pool, s.pools p = some pool → pool.gpuNodeId = gpu → pool.leases = []) →
      (∀ t, ¬s.Busy gpu t) → s.registry gpu = false ∧
      ∀ t request, request.Valid → request.gpuNodeId = gpu → s.threads t = .idle →
        s.stateLock request.session = none →
        ∃ s', Run.exec step [.find t request, .reserve t true] s = some s' ∧
          s'.threads t = .allocating request := by
  have h : Inv s := hrun.invariant (fun _ _ _ hinv hsettled hstep => hinv.preserved hsettled hstep)
    Inv.initial
  refine ⟨fun p pool hp => ?_, fun p q pool pool' => h.one, fun gpu hleases hbusy => ?_⟩
  · have hok := h.ok hp
    refine ⟨hok.tiles, hok.merged, hok.active, ?_, ?_, ?_, hok.frees⟩
    · intro lease hmem hlive
      obtain ⟨hused, haligned⟩ := hok.range lease hmem hlive
      have hbounds := hok.tiles.bounds (mem_used.mp hused).1
      refine ⟨?_, hbounds.2.1, hok.space, haligned⟩
      by_contra hnot
      have hactive := hok.active
      rw [hok.reserved (Bool.eq_false_iff.mpr hnot)] at hactive
      rw [List.eq_nil_of_length_eq_zero hactive.symm] at hused
      cases hused
    · intro lease hmem hmapped
      by_contra hnot
      rw [hok.unmapped lease hmem (by simpa using hnot)] at hmapped
      cases hmapped
    · refine hok.apart.imp_of_mem ?_
      intro a b ha hb hdiffer hlive hlive'
      have hne := hdiffer hlive hlive'
      obtain heq | hdisjoint := hok.tiles.eq_or_disjoint
        (mem_used.mp (hok.range a ha hlive).1).1 (mem_used.mp (hok.range b hb hlive').1).1
      · exact absurd (congrArg Tile.offset heq) hne
      · exact hdisjoint
  · refine ⟨h.unregistered hleases hbusy, ?_⟩
    rintro t request hvalid rfl ht hlock
    exact h.reservable hvalid hleases hbusy ht hlock

/-- A page of a pool of two pages. -/
def onePage : Request := ⟨0, 1, 8192, 4096, 4096⟩

/-- A new pool at an address, or a reservation that could not be given one. -/
def newPool (stored freed : Bool) : AllocateOutcome :=
  ⟨some 65536, stored, true, true, freed, freed⟩

/-- All calls succeed. -/
def acquired : AcquireOutcome := ⟨true, true, true, true, true, true⟩

/-- Two threads lease the two pages of a pool; the first map call of the second one fails. -/
def twoLeases : List Label :=
  [.find 0 onePage, .reserve 0 true, .allocate 0 (newPool true true), .find 1 onePage,
    .carve 0 acquired, .lock 1, .carve 1 { acquired with mapped := false }, .leave 1,
    .find 1 onePage, .lock 1, .carve 1 acquired]

/-- Both release their lease: the first unmap call fails, and so does the first call that frees the
reservation. -/
def bothReleased : List Label :=
  [.release 0 0 1 false false true, .release 0 0 1 false true true, .leave 0,
    .release 1 0 0 false true false, .release 1 0 0 false true true, .leave 1, .destroy 1 true]

theorem scratch_reservations_sound_twoLeases : ∃ s t pool pool',
    Run.Steps step (fun _ => Settled) State.initial twoLeases s ∧
    Run.Steps step (fun _ => Settled) State.initial (twoLeases ++ bothReleased) t ∧
    s.pools 0 = some pool ∧ pool.leases.length = 2 ∧
    (pool.leases.Pairwise fun a b => a.rangeReturned = false → b.rangeReturned = false →
      a.offset + a.size ≤ b.offset ∨ b.offset + b.size ≤ a.offset) ∧
    t.pools 0 = some pool' ∧ pool'.leases = [] ∧ t.registry 1 = false ∧
    pool'.frees.length = 2 ∧ ∀ mapped ∈ pool'.frees, mapped = 0 := by
  obtain ⟨s, t, pool, pool', hleased, hreleased, hpool, htwo, hpool', hnone, hfree, hfrees⟩ :
      ∃ s t pool pool', Run.exec step twoLeases State.initial = some s ∧
        Run.exec step (twoLeases ++ bothReleased) State.initial = some t ∧
        s.pools 0 = some pool ∧ pool.leases.length = 2 ∧ t.pools 0 = some pool' ∧
        pool'.leases = [] ∧ t.registry 1 = false ∧ pool'.frees.length = 2 :=
    ⟨_, _, _, _, rfl, rfl, rfl, rfl, rfl, rfl, rfl, rfl⟩
  have hsettled : ∀ label ∈ twoLeases ++ bothReleased, Settled label := by
    simp [twoLeases, bothReleased, Settled, newPool]
  have hfirst : Run.Steps step (fun _ => Settled) State.initial twoLeases s :=
    .of_exec_of_forall hleased fun label hmem _ => hsettled label (List.mem_append_left _ hmem)
  have hsecond : Run.Steps step (fun _ => Settled) State.initial (twoLeases ++ bothReleased) t :=
    .of_exec_of_forall hreleased fun label hmem _ => hsettled label hmem
  obtain ⟨-, -, -, -, -, hapart, -⟩ := (scratch_reservations_sound hfirst).1 0 pool hpool
  obtain ⟨-, -, -, -, -, -, hzero⟩ := (scratch_reservations_sound hsecond).1 0 pool' hpool'
  exact ⟨s, t, pool, pool', hfirst, hsecond, hpool, htwo, hapart, hpool', hnone, hfree, hfrees,
    hzero⟩

/-- A reservation whose bookkeeping fails and that cannot be freed keeps its GPU for ever, and a
lease that is destroyed although it could not be unmapped is mapped when the pool is freed. -/
theorem destructor_failures :
    (Run.exec step [.find 0 onePage, .reserve 0 true, .allocate 0 (newPool false false),
      .find 1 onePage, .reserve 1 true] State.initial).any (fun s =>
        decide (s.results 1 = .scratchAlreadyReserved) &&
        (s.pools 0).any fun pool => pool.expired) = true ∧
    (Run.exec step [.find 0 onePage, .reserve 0 true, .allocate 0 (newPool true true),
      .carve 0 acquired, .release 0 0 0 true false true, .leave 0, .destroy 0 true]
      State.initial).any (fun s => (s.pools 0).any fun pool => pool.frees = [1]) = true := by
  decide

end LightRocm.Hsakmt
