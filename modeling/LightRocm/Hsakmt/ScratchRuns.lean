import LightRocm.Hsakmt.ScratchPoolRules

/-!
# Runs of scratch leases

Any number of threads acquire, release and destroy leases, step by step. The registry holds exactly
the GPUs of the reservations that exist and of those that are being made; a reservation that exists
belongs to a pool that someone refers to or that is being destroyed.
-/

namespace LightRocm.Hsakmt

open Tiling

/-- The request of a thread. -/
def Phase.request : Phase → Option Request
  | .waiting request _ => some request
  | .reserving request => some request
  | .allocating request => some request
  | .locked request _ => some request
  | .idle | .leaving _ | .destroying _ => none

/-- What holds in every state. -/
structure Inv (s : State) : Prop where
  ok : ∀ {p pool}, s.pools p = some pool → pool.Ok
  fresh : ∀ {p}, s.nextPool ≤ p → s.pools p = none
  known : ∀ {t p}, (s.threads t).pool = some p → ∃ pool, s.pools p = some pool
  nodup : ∀ {p pool}, s.pools p = some pool → pool.holders.Nodup
  holders : ∀ {p pool}, s.pools p = some pool → ∀ t, t ∈ pool.holders ↔ (s.threads t).pool = some p
  locked : ∀ {t request p pool}, s.threads t = .locked request p → s.pools p = some pool →
    pool.lock = some t ∧ pool.reserved = true
  valid : ∀ {t request}, (s.threads t).request = some request → request.Valid
  dead : ∀ {t p}, s.threads t = .destroying p → ∃ pool, s.pools p = some pool ∧ pool.expired = true
  registered : ∀ {p pool}, s.pools p = some pool → pool.reserved = true →
    s.registry pool.gpuNodeId = true
  allocating : ∀ {t request}, s.threads t = .allocating request →
    s.registry request.gpuNodeId = true
  one : ∀ {p q pool pool'}, s.pools p = some pool → s.pools q = some pool' →
    pool.reserved = true → pool'.reserved = true → pool.gpuNodeId = pool'.gpuNodeId → p = q
  apart : ∀ {t request p pool}, s.threads t = .allocating request → s.pools p = some pool →
    pool.reserved = true → pool.gpuNodeId ≠ request.gpuNodeId
  alone : ∀ {t t' request request'}, s.threads t = .allocating request →
    s.threads t' = .allocating request' → request.gpuNodeId = request'.gpuNodeId → t = t'
  owned : ∀ {gpu}, s.registry gpu = true →
    (∃ p pool, s.pools p = some pool ∧ pool.reserved = true ∧ pool.gpuNodeId = gpu) ∨
      ∃ t request, s.threads t = .allocating request ∧ request.gpuNodeId = gpu
  live : ∀ {p pool}, s.pools p = some pool → pool.reserved = true →
    pool.expired = false ∨ ∃ t, s.threads t = .destroying p
  entries : ∀ {session gpu p}, s.scratchPools session gpu = some p →
    ∃ pool, s.pools p = some pool ∧ pool.gpuNodeId = gpu
  locks : ∀ {session t}, s.stateLock session = some t → (s.threads t).session = some session

/-- How a thread goes on at a pool. -/
inductive Phase.Move (p : ℕ) : Phase → Phase → Prop
  | find (request : Request) : Move p .idle (.waiting request p)
  | retry (request : Request) : Move p (.waiting request p) (.reserving request)
  | refuse (request : Request) : Move p (.waiting request p) (.leaving p)
  | lock (request : Request) : Move p (.waiting request p) (.locked request p)
  | fail (request : Request) : Move p (.locked request p) (.leaving p)
  | acquire (request : Request) : Move p (.locked request p) .idle
  | keep : Move p .idle .idle
  | release : Move p .idle (.leaving p)
  | leave : Move p (.leaving p) .idle
  | last : Move p (.leaving p) (.destroying p)
  | destroy : Move p (.destroying p) .idle

namespace Phase.Move

variable {p : ℕ} {old new : Phase}

/-- The thread refers to no other pool. -/
theorem pool (h : Move p old new) :
    (∀ q, old.pool = some q → q = p) ∧ ∀ q, new.pool = some q → q = p := by
  cases h <;> constructor <;> rintro q ⟨⟩ <;> rfl

/-- It destroys no other pool. -/
theorem destroying (h : Move p old new) :
    (∀ q, old = .destroying q → q = p) ∧ ∀ q, new = .destroying q → q = p := by
  cases h <;> constructor <;> rintro q ⟨⟩ <;> rfl

/-- It does not reserve a GPU. -/
theorem allocating (h : Move p old new) (request : Request) :
    old ≠ .allocating request ∧ new ≠ .allocating request := by
  cases h <;> constructor <;> rintro ⟨⟩

/-- It has no new request. -/
theorem request (h : Move p old new) {request : Request} (hnew : new.request = some request) :
    old.request = some request ∨ old = .idle ∧ new = .waiting request p := by
  cases h <;> cases hnew
  · exact .inr ⟨rfl, rfl⟩
  · exact .inl rfl
  · exact .inl rfl

end Phase.Move

/-- A thread goes on and a pool that it may refer to changes. -/
structure Change (s s' : State) (t p : ℕ) (pool new : Pool) (phase : Phase) : Prop where
  pools : s'.pools = Function.update s.pools p (some new)
  registry : s'.registry = (s.put p pool new).registry
  threads : s'.threads = Function.update s.threads t phase
  nextPool : s'.nextPool = s.nextPool
  scratchPools : ∀ {session gpu q}, s'.scratchPools session gpu = some q →
    s.scratchPools session gpu = some q
  stateLock : ∀ {session t'}, s'.stateLock session = some t' → (s'.threads t').session = some
    session

/-- When such a change keeps what holds. -/
structure Allowed (s : State) (t p : ℕ) (pool new : Pool) (phase : Phase) : Prop where
  current : s.pools p = some pool
  ok : new.Ok
  gpuNodeId : new.gpuNodeId = pool.gpuNodeId
  reserved : new.reserved = true → pool.reserved = true
  nodup : new.holders.Nodup
  holders : ∀ t', t' ∈ new.holders ↔ if t' = t then phase.pool = some p else t' ∈ pool.holders
  move : (s.threads t).Move p phase
  lock : ∀ t' request, t' ≠ t → s.threads t' = .locked request p → pool.lock = some t' →
    pool.reserved = true → new.lock = some t' ∧ new.reserved = true
  locked : ∀ request q, phase = .locked request q → new.lock = some t ∧ new.reserved = true
  valid : ∀ request, phase = .waiting request p → request.Valid
  expired : pool.expired = true → new.expired = true
  dead : phase = .destroying p → new.expired = true
  live : new.reserved = true → new.expired = false ∨ phase = .destroying p ∨
    ∃ t', t' ≠ t ∧ s.threads t' = .destroying p

variable {s s' : State} {t p : ℕ} {pool new : Pool} {phase : Phase}

theorem Change.pools_cases (hc : Change s s' t p pool new phase) {q : ℕ} {other : Pool}
    (hq : s'.pools q = some other) : q = p ∧ other = new ∨ q ≠ p ∧ s.pools q = some other := by
  rw [hc.pools] at hq
  by_cases heq : q = p
  · rw [heq, Function.update_self] at hq
    exact .inl ⟨heq, (Option.some.inj hq).symm⟩
  · rw [Function.update_of_ne heq] at hq
    exact .inr ⟨heq, hq⟩

theorem Change.pools_self (hc : Change s s' t p pool new phase) : s'.pools p = some new := by
  rw [hc.pools, Function.update_self]

theorem Change.pools_of_ne (hc : Change s s' t p pool new phase) {q : ℕ} (hne : q ≠ p) :
    s'.pools q = s.pools q := by
  rw [hc.pools, Function.update_of_ne hne]

theorem Change.threads_self (hc : Change s s' t p pool new phase) : s'.threads t = phase := by
  rw [hc.threads, Function.update_self]

theorem Change.threads_of_ne (hc : Change s s' t p pool new phase) {t' : ℕ} (hne : t' ≠ t) :
    s'.threads t' = s.threads t' := by
  rw [hc.threads, Function.update_of_ne hne]

/-- Only the GPU of a reservation that is freed leaves the registry. -/
theorem Change.registry_eq (hc : Change s s' t p pool new phase)
    (ha : Allowed s t p pool new phase) (gpu : ℕ) : s'.registry gpu =
      (s.registry gpu &&
        !(pool.reserved && !new.reserved && decide (gpu = pool.gpuNodeId))) := by
  rw [hc.registry]
  unfold State.put
  dsimp only
  cases hfreed : pool.reserved && !new.reserved with
  | false => simp
  | true =>
    by_cases heq : gpu = pool.gpuNodeId
    · simp [heq, ha.gpuNodeId]
    · simp [heq, Function.update_of_ne, ha.gpuNodeId]

theorem Inv.change (h : Inv s) (ha : Allowed s t p pool new phase)
    (hc : Change s s' t p pool new phase) : Inv s' := by
  -- Other threads are where they were, and no thread begins or ends an allocation.
  have hallocating : ∀ {t' request}, s'.threads t' = .allocating request ↔
      s.threads t' = .allocating request := by
    intro t' request
    by_cases heq : t' = t
    · subst heq
      rw [hc.threads_self]
      exact iff_of_false (ha.move.allocating request).2 (ha.move.allocating request).1
    · rw [hc.threads_of_ne heq]
  -- A reservation that is there was there before.
  have hreserved : ∀ {q other}, s'.pools q = some other → other.reserved = true →
      ∃ old, s.pools q = some old ∧ old.reserved = true ∧ old.gpuNodeId = other.gpuNodeId := by
    intro q other hq hother
    obtain ⟨rfl, rfl⟩ | ⟨hne, hq⟩ := hc.pools_cases hq
    · exact ⟨pool, ha.current, ha.reserved hother, ha.gpuNodeId.symm⟩
    · exact ⟨other, hq, hother, rfl⟩
  -- A GPU that was registered for another reservation stays so.
  have hregistry : ∀ {gpu}, s.registry gpu = true →
      (pool.reserved = true → gpu = pool.gpuNodeId → new.reserved = true) →
      s'.registry gpu = true := by
    intro gpu hgpu hkept
    rw [hc.registry_eq ha, hgpu, Bool.true_and, Bool.not_eq_true', Bool.and_eq_false_iff,
      Bool.and_eq_false_iff, decide_eq_false_iff_not]
    by_cases hself : pool.reserved = true ∧ gpu = pool.gpuNodeId
    · exact .inl (.inr (by rw [hkept hself.1 hself.2]; rfl))
    · rw [not_and_or] at hself
      exact hself.imp (fun hnot => .inl (by simpa using hnot)) id
  refine
    { ok := ?ok, fresh := ?fresh, known := ?known, nodup := ?nodup, holders := ?holders, locked :=
      ?locked, valid := ?valid,
      dead := ?dead, registered := ?registered, allocating := ?allocating, one := ?one, apart :=
        ?apart, alone := ?alone,
      owned := ?owned, live := ?live, entries := ?entries, locks := hc.stateLock }
  case ok =>
    intro q other hq
    obtain ⟨-, rfl⟩ | ⟨-, hq⟩ := hc.pools_cases hq
    · exact ha.ok
    · exact h.ok hq
  case fresh =>
    intro q hle
    rw [hc.nextPool] at hle
    have hnone := h.fresh hle
    have hne : q ≠ p := by
      rintro rfl
      rw [ha.current] at hnone
      cases hnone
    rw [hc.pools_of_ne hne]
    exact hnone
  case known =>
    intro t' q ht
    by_cases hq : q = p
    · exact ⟨new, hq ▸ hc.pools_self⟩
    · by_cases heq : t' = t
      · rw [heq, hc.threads_self] at ht
        exact absurd (ha.move.pool.2 q ht) hq
      · rw [hc.threads_of_ne heq] at ht
        rw [hc.pools_of_ne hq]
        exact h.known ht
  case nodup =>
    intro q other hq
    obtain ⟨-, rfl⟩ | ⟨-, hq⟩ := hc.pools_cases hq
    · exact ha.nodup
    · exact h.nodup hq
  case holders =>
    intro q other hq t'
    obtain ⟨rfl, rfl⟩ | ⟨hne, hq⟩ := hc.pools_cases hq
    · rw [ha.holders]
      by_cases heq : t' = t
      · rw [if_pos heq, heq, hc.threads_self]
      · rw [if_neg heq, hc.threads_of_ne heq, h.holders ha.current]
    · rw [h.holders hq]
      by_cases heq : t' = t
      · rw [heq, hc.threads_self]
        exact iff_of_false (fun hself => hne (ha.move.pool.1 q hself)) fun hself => hne
          (ha.move.pool.2 q hself)
      · rw [hc.threads_of_ne heq]
  case locked =>
    intro t' request q other ht hq
    by_cases heq : t' = t
    · rw [heq, hc.threads_self] at ht
      obtain rfl : q = p := ha.move.pool.2 q (by rw [ht]; rfl)
      rw [hc.pools_self] at hq
      cases hq
      rw [heq]
      exact ha.locked request q ht
    · rw [hc.threads_of_ne heq] at ht
      obtain ⟨rfl, rfl⟩ | ⟨-, hq⟩ := hc.pools_cases hq
      · obtain ⟨hlock, hheld⟩ := h.locked ht ha.current
        exact ha.lock t' request heq ht hlock hheld
      · exact h.locked ht hq
  case valid =>
    intro t' request ht
    by_cases heq : t' = t
    · rw [heq, hc.threads_self] at ht
      obtain hold | ⟨-, hnew⟩ := ha.move.request ht
      · exact h.valid hold
      · exact ha.valid request hnew
    · rw [hc.threads_of_ne heq] at ht
      exact h.valid ht
  case dead =>
    intro t' q ht
    by_cases heq : t' = t
    · rw [heq, hc.threads_self] at ht
      obtain rfl := ha.move.destroying.2 q ht
      exact ⟨new, hc.pools_self, ha.dead ht⟩
    · rw [hc.threads_of_ne heq] at ht
      obtain ⟨other, hother, hexpired⟩ := h.dead ht
      by_cases hq : q = p
      · subst hq
        obtain rfl : pool = other := Option.some.inj (ha.current.symm.trans hother)
        exact ⟨new, hc.pools_self, ha.expired hexpired⟩
      · exact ⟨other, by rw [hc.pools_of_ne hq, hother], hexpired⟩
  case registered =>
    intro q other hq hother
    obtain ⟨old, hold, hheld, hgpu⟩ := hreserved hq hother
    refine hregistry (hgpu ▸ h.registered hold hheld) fun hpool heq => ?_
    obtain rfl : q = p := h.one hold ha.current hheld hpool (hgpu.trans heq)
    rw [hc.pools_self] at hq
    cases hq
    exact hother
  case allocating =>
    intro t' request ht
    have hold := hallocating.mp ht
    refine hregistry (h.allocating hold) fun hpool heq => ?_
    exact absurd heq.symm (h.apart hold ha.current hpool)
  case one =>
    intro q q' other other' hq hq' hheld hheld' heq
    obtain ⟨old, hold, hheldOld, hgpu⟩ := hreserved hq hheld
    obtain ⟨old', hold', hheldOld', hgpu'⟩ := hreserved hq' hheld'
    exact h.one hold hold' hheldOld hheldOld' (by rw [hgpu, hgpu', heq])
  case apart =>
    intro t' request q other ht hq hheld
    obtain ⟨old, hold, hheldOld, hgpu⟩ := hreserved hq hheld
    rw [← hgpu]
    exact h.apart (hallocating.mp ht) hold hheldOld
  case alone =>
    intro t₁ t₂ request₁ request₂ ht₁ ht₂
    exact h.alone (hallocating.mp ht₁) (hallocating.mp ht₂)
  case owned =>
    intro gpu hgpu
    rw [hc.registry_eq ha, Bool.and_eq_true, Bool.not_eq_true'] at hgpu
    obtain ⟨q, other, hq, hheld, heq⟩ | ⟨t', request, ht, heq⟩ := h.owned hgpu.1
    · by_cases hsame : q = p
      · subst hsame
        obtain rfl : pool = other := Option.some.inj (ha.current.symm.trans hq)
        refine .inl ⟨q, new, hc.pools_self, ?_, ha.gpuNodeId.trans heq⟩
        have hkept := hgpu.2
        rw [hheld, heq] at hkept
        simpa using hkept
      · exact .inl ⟨q, other, by rw [hc.pools_of_ne hsame, hq], hheld, heq⟩
    · exact .inr ⟨t', request, hallocating.mpr ht, heq⟩
  case live =>
    intro q other hq hheld
    obtain ⟨rfl, rfl⟩ | ⟨hne, hq⟩ := hc.pools_cases hq
    · obtain hlive | hself | ⟨t', heq, ht⟩ := ha.live hheld
      · exact .inl hlive
      · exact .inr ⟨t, hc.threads_self.trans hself⟩
      · exact .inr ⟨t', by rw [hc.threads_of_ne heq, ht]⟩
    · refine (h.live hq hheld).imp_right fun ⟨t', ht⟩ => ⟨t', ?_⟩
      have heq : t' ≠ t := by
        rintro rfl
        exact hne (ha.move.destroying.1 q ht)
      rw [hc.threads_of_ne heq, ht]
  case entries =>
    intro session gpu q hentry
    obtain ⟨other, hother, hgpu⟩ := h.entries (hc.scratchPools hentry)
    by_cases hq : q = p
    · subst hq
      obtain rfl : pool = other := Option.some.inj (ha.current.symm.trans hother)
      exact ⟨new, hc.pools_self, ha.gpuNodeId.trans hgpu⟩
    · exact ⟨other, by rw [hc.pools_of_ne hq, hother], hgpu⟩

/-! ## Threads without a pool -/

/-- The thread has registered the GPU and has no pool for it yet. -/
def Phase.Claims (phase : Phase) (gpu : ℕ) : Prop :=
  ∃ request, phase = .allocating request ∧ request.gpuNodeId = gpu

@[simp]
theorem Phase.claims_allocating {request : Request} {gpu : ℕ} :
    (Phase.allocating request).Claims gpu ↔ request.gpuNodeId = gpu := by
  constructor
  · rintro ⟨request', hclaim, rfl⟩
    cases hclaim
    rfl
  · exact fun hgpu => ⟨request, rfl, hgpu⟩

@[simp]
theorem Phase.not_claims_idle {gpu : ℕ} : ¬Phase.idle.Claims gpu := by
  rintro ⟨request, ⟨⟩, -⟩

@[simp]
theorem Phase.not_claims_reserving {request : Request} {gpu : ℕ} :
    ¬(Phase.reserving request).Claims gpu := by
  rintro ⟨request', ⟨⟩, -⟩

/-- A thread without a pool goes on. -/
structure Rephase (s s' : State) (t : ℕ) (phase : Phase) : Prop where
  pools : s'.pools = s.pools
  nextPool : s'.nextPool = s.nextPool
  scratchPools : s'.scratchPools = s.scratchPools
  threads : s'.threads = Function.update s.threads t phase
  registry : ∀ gpu, s'.registry gpu = true ↔
    phase.Claims gpu ∨ s.registry gpu = true ∧ ¬(s.threads t).Claims gpu
  stateLock : ∀ {session t'}, s'.stateLock session = some t' → (s'.threads t').session = some
    session
  old : (s.threads t).pool = none
  notDestroying : ∀ q, s.threads t ≠ .destroying q
  new : phase.pool = none
  notDestroying' : ∀ q, phase ≠ .destroying q
  valid : ∀ request, phase.request = some request → request.Valid
  claims : ∀ gpu, phase.Claims gpu → s.registry gpu = false

theorem Rephase.threads_self (hr : Rephase s s' t phase) : s'.threads t = phase := by
  rw [hr.threads, Function.update_self]

theorem Rephase.threads_of_ne (hr : Rephase s s' t phase) {t' : ℕ} (hne : t' ≠ t) :
    s'.threads t' = s.threads t' := by
  rw [hr.threads, Function.update_of_ne hne]

theorem Inv.rephase (h : Inv s) (hr : Rephase s s' t phase) : Inv s' := by
  have hpool : ∀ t', (s'.threads t').pool = (s.threads t').pool := by
    intro t'
    by_cases heq : t' = t
    · rw [heq, hr.threads_self, hr.new, hr.old]
    · rw [hr.threads_of_ne heq]
  have hdestroying : ∀ {t' q}, s'.threads t' = .destroying q ↔ s.threads t' = .destroying q := by
    intro t' q
    by_cases heq : t' = t
    · subst heq
      rw [hr.threads_self]
      exact iff_of_false (hr.notDestroying' q) (hr.notDestroying q)
    · rw [hr.threads_of_ne heq]
  refine
    { ok := fun hq => h.ok (hr.pools ▸ hq)
      fresh := fun hle => hr.pools ▸ h.fresh (hr.nextPool ▸ hle)
      known := fun ht => hr.pools ▸ h.known (hpool _ ▸ ht)
      nodup := fun hq => h.nodup (hr.pools ▸ hq)
      holders := fun hq t' => by rw [hpool]; exact h.holders (hr.pools ▸ hq) t'
      locked := ?locked
      valid := ?valid
      dead := fun ht => hr.pools ▸ h.dead (hdestroying.mp ht)
      registered := ?registered
      allocating := ?allocating
      one := fun hq hq' => h.one (hr.pools ▸ hq) (hr.pools ▸ hq')
      apart := ?apart
      alone := ?alone
      owned := ?owned
      live := fun hq hheld => (h.live (hr.pools ▸ hq) hheld).imp_right fun ⟨t', ht⟩ =>
        ⟨t', hdestroying.mpr ht⟩
      entries := fun hentry => hr.pools ▸ h.entries (hr.scratchPools ▸ hentry)
      locks := hr.stateLock }
  case locked =>
    intro t' request q other ht hq
    by_cases heq : t' = t
    · rw [heq, hr.threads_self] at ht
      have hnone := hr.new
      rw [ht] at hnone
      cases hnone
    · rw [hr.threads_of_ne heq] at ht
      exact h.locked ht (hr.pools ▸ hq)
  case valid =>
    intro t' request ht
    by_cases heq : t' = t
    · rw [heq, hr.threads_self] at ht
      exact hr.valid request ht
    · rw [hr.threads_of_ne heq] at ht
      exact h.valid ht
  case registered =>
    intro q other hq hheld
    rw [hr.pools] at hq
    refine (hr.registry _).mpr (.inr ⟨h.registered hq hheld, ?_⟩)
    rintro ⟨request, ht, hgpu⟩
    exact h.apart ht hq hheld hgpu.symm
  case allocating =>
    intro t' request ht
    by_cases heq : t' = t
    · rw [heq, hr.threads_self] at ht
      exact (hr.registry _).mpr (.inl ⟨request, ht, rfl⟩)
    · rw [hr.threads_of_ne heq] at ht
      refine (hr.registry _).mpr (.inr ⟨h.allocating ht, ?_⟩)
      rintro ⟨request', ht', hgpu⟩
      exact heq (h.alone ht ht' hgpu.symm)
  case apart =>
    intro t' request q other ht hq hheld hgpu
    rw [hr.pools] at hq
    by_cases heq : t' = t
    · rw [heq, hr.threads_self] at ht
      have hfree := hr.claims _ ⟨request, ht, rfl⟩
      rw [← hgpu, h.registered hq hheld] at hfree
      cases hfree
    · rw [hr.threads_of_ne heq] at ht
      exact h.apart ht hq hheld hgpu
  case alone =>
    -- Who has registered a GPU before cannot be the thread that registers it now.
    have hother : ∀ {t' request request'}, t' ≠ t → s'.threads t = .allocating request →
        s'.threads t' = .allocating request' → request.gpuNodeId ≠ request'.gpuNodeId := by
      intro t' request request' hne ht ht' hgpu
      rw [hr.threads_self] at ht
      rw [hr.threads_of_ne hne] at ht'
      have hfree := hr.claims _ ⟨request, ht, rfl⟩
      rw [hgpu, h.allocating ht'] at hfree
      cases hfree
    intro t₁ t₂ request₁ request₂ ht₁ ht₂ hgpu
    by_cases heq₁ : t₁ = t
    · by_cases heq₂ : t₂ = t
      · rw [heq₁, heq₂]
      · exact absurd hgpu (hother heq₂ (heq₁ ▸ ht₁) ht₂)
    · by_cases heq₂ : t₂ = t
      · exact absurd hgpu.symm (hother heq₁ (heq₂ ▸ ht₂) ht₁)
      · rw [hr.threads_of_ne heq₁] at ht₁
        rw [hr.threads_of_ne heq₂] at ht₂
        exact h.alone ht₁ ht₂ hgpu
  case owned =>
    intro gpu hgpu
    rw [hr.pools]
    obtain ⟨request, hphase, heq⟩ | ⟨hgpu, hnot⟩ := (hr.registry gpu).mp hgpu
    · exact .inr ⟨t, request, hr.threads_self.trans hphase, heq⟩
    · refine (h.owned hgpu).imp_right fun ⟨t', request, ht, heq⟩ => ⟨t', request, ?_, heq⟩
      have hne : t' ≠ t := by
        rintro rfl
        exact hnot ⟨request, ht, heq⟩
      rw [hr.threads_of_ne hne, ht]

/-! ## New pools -/

/-- A thread that has registered a GPU makes a pool for it, or frees the reservation at once. -/
structure Insert (s s' : State) (t : ℕ) (request : Request) (new : Pool) (phase : Phase) :
    Prop where
  pools : s'.pools = Function.update s.pools s.nextPool (some new)
  nextPool : s'.nextPool = s.nextPool + 1
  threads : s'.threads = Function.update s.threads t phase
  scratchPools : ∀ {session gpu q}, s'.scratchPools session gpu = some q →
    s.scratchPools session gpu = some q ∨ q = s.nextPool ∧ gpu = request.gpuNodeId
  registry : ∀ gpu, s'.registry gpu = true ↔
    s.registry gpu = true ∧ (gpu = request.gpuNodeId → new.reserved = true)
  stateLock : ∀ {session t'}, s'.stateLock session = some t' → (s'.threads t').session = some
    session
  old : s.threads t = .allocating request
  ok : new.Ok
  gpuNodeId : new.gpuNodeId = request.gpuNodeId
  outcome : phase = .idle ∧ new.holders = [] ∧ new.reserved = false ∨
    phase = .locked request s.nextPool ∧ new.holders = [t] ∧ new.lock = some t ∧
      new.reserved = true

theorem Inv.insert {request : Request} (h : Inv s) (hi : Insert s s' t request new phase) :
    Inv s' := by
  have hnone := h.fresh (le_refl s.nextPool)
  have hself : s'.pools s.nextPool = some new := by
    rw [hi.pools, Function.update_self]
  have hother : ∀ {q}, q ≠ s.nextPool → s'.pools q = s.pools q := fun hne => by
    rw [hi.pools, Function.update_of_ne hne]
  have hold : ∀ {q other}, s.pools q = some other → s'.pools q = some other := by
    intro q other hq
    rw [hother, hq]
    rintro rfl
    rw [hnone] at hq
    cases hq
  have hpools : ∀ {q other}, s'.pools q = some other → q = s.nextPool ∧ other = new ∨
      s.pools q = some other := by
    intro q other hq
    by_cases heq : q = s.nextPool
    · rw [heq, hself] at hq
      exact .inl ⟨heq, (Option.some.inj hq).symm⟩
    · exact .inr (hother heq ▸ hq)
  have hthread : s'.threads t = phase := by
    rw [hi.threads, Function.update_self]
  have hthreads : ∀ {t'}, t' ≠ t → s'.threads t' = s.threads t' := fun hne => by
    rw [hi.threads, Function.update_of_ne hne]
  -- Only this thread has registered the GPU.
  have hnot : ∀ {t' request'}, s'.threads t' = .allocating request' →
      t' ≠ t ∧ s.threads t' = .allocating request' ∧ request'.gpuNodeId ≠ request.gpuNodeId := by
    intro t' request' ht
    have hne : t' ≠ t := by
      rintro rfl
      rw [hthread] at ht
      obtain ⟨rfl, -⟩ | ⟨rfl, -⟩ := hi.outcome <;> cases ht
    rw [hthreads hne] at ht
    exact ⟨hne, ht, fun hgpu => hne (h.alone ht hi.old hgpu)⟩
  have hphase : ∀ {q}, phase.pool = some q → q = s.nextPool := by
    intro q hq
    obtain ⟨rfl, -⟩ | ⟨rfl, -⟩ := hi.outcome
    · cases hq
    · exact (Option.some.inj hq).symm
  have hidle : (s.threads t).pool = none := by
    rw [hi.old]
    rfl
  refine
    { ok := ?ok, fresh := ?fresh, known := ?known, nodup := ?nodup, holders := ?holders
      locked := ?locked, valid := ?valid, dead := ?dead, registered := ?registered
      allocating := ?allocating, one := ?one, apart := ?apart, alone := ?alone, owned := ?owned
      live := ?live, entries := ?entries, locks := hi.stateLock }
  case ok =>
    intro q other hq
    obtain ⟨-, rfl⟩ | hq := hpools hq
    · exact hi.ok
    · exact h.ok hq
  case fresh =>
    intro q hle
    rw [hi.nextPool] at hle
    rw [hother (by omega)]
    exact h.fresh (by omega)
  case known =>
    intro t' q ht
    by_cases heq : t' = t
    · rw [heq, hthread] at ht
      exact ⟨new, hphase ht ▸ hself⟩
    · rw [hthreads heq] at ht
      obtain ⟨other, hq⟩ := h.known ht
      exact ⟨other, hold hq⟩
  case nodup =>
    intro q other hq
    obtain ⟨-, rfl⟩ | hq := hpools hq
    · obtain ⟨-, hnil, -⟩ | ⟨-, hone, -⟩ := hi.outcome
      · rw [hnil]
        exact List.nodup_nil
      · rw [hone]
        exact List.nodup_singleton t
    · exact h.nodup hq
  case holders =>
    intro q other hq t'
    obtain ⟨rfl, rfl⟩ | hq := hpools hq
    · by_cases heq : t' = t
      · rw [heq, hthread]
        obtain ⟨rfl, hnil, -⟩ | ⟨rfl, hone, -⟩ := hi.outcome
        · rw [hnil]
          exact iff_of_false List.not_mem_nil (by rintro ⟨⟩)
        · rw [hone]
          exact iff_of_true (List.mem_singleton_self t) rfl
      · rw [hthreads heq]
        refine iff_of_false (fun hmem => ?_) fun ht => ?_
        · obtain ⟨-, hnil, -⟩ | ⟨-, hone, -⟩ := hi.outcome
          · rw [hnil] at hmem
            cases hmem
          · rw [hone, List.mem_singleton] at hmem
            exact heq hmem
        · obtain ⟨other', hknown⟩ := h.known ht
          rw [hnone] at hknown
          cases hknown
    · rw [h.holders hq]
      by_cases heq : t' = t
      · rw [heq, hthread, hidle]
        refine iff_of_false (by rintro ⟨⟩) fun ht => ?_
        rw [hphase ht, hnone] at hq
        cases hq
      · rw [hthreads heq]
  case locked =>
    intro t' request' q other ht hq
    by_cases heq : t' = t
    · rw [heq, hthread] at ht
      obtain ⟨rfl, -⟩ | ⟨rfl, -, hlock, hheld⟩ := hi.outcome
      · cases ht
      · cases ht
        rw [hself] at hq
        cases hq
        exact ⟨heq ▸ hlock, hheld⟩
    · rw [hthreads heq] at ht
      obtain ⟨rfl, rfl⟩ | hq := hpools hq
      · obtain ⟨other', hknown⟩ := h.known (t := t') (p := s.nextPool) (by rw [ht]; rfl)
        rw [hnone] at hknown
        cases hknown
      · exact h.locked ht hq
  case valid =>
    intro t' request' ht
    by_cases heq : t' = t
    · rw [heq, hthread] at ht
      obtain ⟨rfl, -⟩ | ⟨rfl, -⟩ := hi.outcome
      · cases ht
      · cases ht
        exact h.valid (by rw [hi.old]; rfl)
    · rw [hthreads heq] at ht
      exact h.valid ht
  case dead =>
    intro t' q ht
    have hne : t' ≠ t := by
      rintro rfl
      rw [hthread] at ht
      obtain ⟨rfl, -⟩ | ⟨rfl, -⟩ := hi.outcome <;> cases ht
    rw [hthreads hne] at ht
    obtain ⟨other, hq, hexpired⟩ := h.dead ht
    exact ⟨other, hold hq, hexpired⟩
  case registered =>
    intro q other hq hheld
    obtain ⟨-, rfl⟩ | hq := hpools hq
    · rw [hi.gpuNodeId]
      exact (hi.registry _).mpr ⟨h.allocating hi.old, fun _ => hheld⟩
    · exact (hi.registry _).mpr ⟨h.registered hq hheld, fun hgpu =>
        absurd hgpu (h.apart hi.old hq hheld)⟩
  case allocating =>
    intro t' request' ht
    obtain ⟨-, ht, hgpu⟩ := hnot ht
    exact (hi.registry _).mpr ⟨h.allocating ht, fun heq => absurd heq hgpu⟩
  case one =>
    intro q q' other other' hq hq' hheld hheld' hgpu
    obtain ⟨rfl, rfl⟩ | hq := hpools hq
    · obtain ⟨rfl, -⟩ | hq' := hpools hq'
      · rfl
      · exact absurd (hgpu.symm.trans hi.gpuNodeId) (h.apart hi.old hq' hheld')
    · obtain ⟨rfl, rfl⟩ | hq' := hpools hq'
      · exact absurd (hgpu.trans hi.gpuNodeId) (h.apart hi.old hq hheld)
      · exact h.one hq hq' hheld hheld' hgpu
  case apart =>
    intro t' request' q other ht hq hheld
    obtain ⟨-, ht, hgpu⟩ := hnot ht
    obtain ⟨-, rfl⟩ | hq := hpools hq
    · rw [hi.gpuNodeId]
      exact hgpu.symm
    · exact h.apart ht hq hheld
  case alone =>
    intro t₁ t₂ request₁ request₂ ht₁ ht₂
    exact h.alone (hnot ht₁).2.1 (hnot ht₂).2.1
  case owned =>
    intro gpu hgpu
    obtain ⟨hgpu, hkept⟩ := (hi.registry gpu).mp hgpu
    by_cases hmine : gpu = request.gpuNodeId
    · exact .inl ⟨s.nextPool, new, hself, hkept hmine, by rw [hi.gpuNodeId, hmine]⟩
    · obtain ⟨q, other, hq, hheld, heq⟩ | ⟨t', request', ht, heq⟩ := h.owned hgpu
      · exact .inl ⟨q, other, hold hq, hheld, heq⟩
      · refine .inr ⟨t', request', ?_, heq⟩
        rw [hthreads, ht]
        rintro rfl
        rw [hi.old] at ht
        cases ht
        exact hmine heq.symm
  case live =>
    intro q other hq hheld
    obtain ⟨-, rfl⟩ | hq := hpools hq
    · obtain ⟨-, -, hfreed⟩ | ⟨-, hone, -⟩ := hi.outcome
      · rw [hfreed] at hheld
        cases hheld
      · exact .inl (by simp [Pool.expired, hone])
    · refine (h.live hq hheld).imp_right fun ⟨t', ht⟩ => ⟨t', ?_⟩
      rw [hthreads, ht]
      rintro rfl
      rw [hi.old] at ht
      cases ht
  case entries =>
    intro session gpu q hentry
    obtain hentry | ⟨rfl, rfl⟩ := hi.scratchPools hentry
    · obtain ⟨other, hq, hgpu⟩ := h.entries hentry
      exact ⟨other, hold hq, hgpu⟩
    · exact ⟨new, hself, hi.gpuNodeId⟩

end LightRocm.Hsakmt
