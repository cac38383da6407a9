import LightRocm.Lib.Run

/-!
# Lifetime pins of the HSA backend

`LifetimePinCount` counts the submissions that use a module, a queue or an event
without the global lock. Its steps are single atomic operations and single
operations on its mutex. Any number of threads take and release pins, and an
owner destroys the object once it has seen the count at zero: `lr_module_destroy`
through `wait_until_empty`, `prepare_queue_destruction_locked` and
`wait_for_event_consumers_locked` after a look with `empty`. A pin is taken under
the global lock, after a look at the object's `destroying` flag.
-/

namespace LightRocm.Hsa

/-- Where a thread stands that uses the object. -/
inductive User where
  /-- It holds no pin. -/
  | idle
  /-- It holds a pin. -/
  | pinned
  /-- In `release`, it has taken the count to zero and is about to lock. -/
  | releasing
  /-- In `release`, it holds the mutex and is about to notify. -/
  | notifying
  /-- In `release`, it has notified and is about to unlock. -/
  | leaving
  deriving DecidableEq

/-- Where the owner of the object stands. -/
inductive Owner where
  /-- The object is in use. -/
  | running
  /-- The flag `destroying` is set. -/
  | announced
  /-- In `wait_until_empty`, about to lock. -/
  | locking
  /-- In `wait_until_empty`, it holds the mutex and is about to look at the count. -/
  | testing
  /-- In `wait_until_empty`, it sleeps on the condition variable. -/
  | sleeping
  /-- In `wait_until_empty`, it has seen zero and is about to unlock. -/
  | unlocking
  /-- It has seen the count at zero. -/
  | observed
  /-- The object is gone. -/
  | destroyed
  deriving DecidableEq

/-- An object with a `LifetimePinCount`, its owner and its users. -/
structure PinnedObject where
  /-- `count_`. -/
  count : ℕ
  /-- `wait_mutex_` is held. -/
  locked : Bool
  /-- The owner. -/
  owner : Owner
  /-- The threads that use the object. -/
  users : List User
  deriving DecidableEq

/-- What happens next. -/
inductive PinStep where
  /-- `retain` of thread `t`. -/
  | retain (t : ℕ)
  /-- The decrement of `release`. -/
  | decrement (t : ℕ)
  /-- `release` takes the mutex. -/
  | lock (t : ℕ)
  /-- `release` notifies. -/
  | notify (t : ℕ)
  /-- `release` gives the mutex back. -/
  | unlock (t : ℕ)
  /-- The owner sets `destroying`. -/
  | announce
  /-- The owner calls `empty`, and `wait_until_empty` if it is not. -/
  | empty
  /-- The owner calls `wait_until_empty`. -/
  | waitUntilEmpty
  /-- The owner takes the mutex. -/
  | ownerLock
  /-- The owner looks at the count, and sleeps if it is not zero. -/
  | ownerTest
  /-- The owner wakes up, for a reason or without one. -/
  | ownerWake
  /-- The owner gives the mutex back. -/
  | ownerUnlock
  /-- The owner does not destroy the object after all. -/
  | abandon
  /-- The owner destroys the object. -/
  | destroy
  deriving DecidableEq

/-- One step, if it can be taken. -/
def PinnedObject.step (label : PinStep) (o : PinnedObject) : Option PinnedObject :=
  match label with
  | .retain t =>
    if o.users[t]? = some .idle ∧ o.owner = .running then
      some { o with count := o.count + 1, users := o.users.set t .pinned }
    else none
  | .decrement t =>
    if o.users[t]? = some .pinned then
      some { o with
        count := o.count - 1
        users := o.users.set t (if o.count = 1 then .releasing else .idle) }
    else none
  | .lock t =>
    if o.users[t]? = some .releasing ∧ o.locked = false then
      some { o with locked := true, users := o.users.set t .notifying }
    else none
  | .notify t =>
    if o.users[t]? = some .notifying then
      some { o with
        owner := if o.owner = .sleeping then .locking else o.owner
        users := o.users.set t .leaving }
    else none
  | .unlock t =>
    if o.users[t]? = some .leaving then
      some { o with locked := false, users := o.users.set t .idle }
    else none
  | .announce => if o.owner = .running then some { o with owner := .announced } else none
  | .empty =>
    if o.owner = .announced then
      some { o with owner := if o.count = 0 then .observed else .locking }
    else none
  | .waitUntilEmpty => if o.owner = .announced then some { o with owner := .locking } else none
  | .ownerLock =>
    if o.owner = .locking ∧ o.locked = false then
      some { o with owner := .testing, locked := true }
    else none
  | .ownerTest =>
    if o.owner = .testing then
      some (if o.count = 0 then { o with owner := .unlocking }
        else { o with owner := .sleeping, locked := false })
    else none
  | .ownerWake => if o.owner = .sleeping then some { o with owner := .locking } else none
  | .ownerUnlock =>
    if o.owner = .unlocking then some { o with owner := .observed, locked := false } else none
  | .abandon => if o.owner = .observed then some { o with owner := .running } else none
  | .destroy => if o.owner = .observed then some { o with owner := .destroyed } else none

/-- An object that nobody uses yet. -/
def PinnedObject.init (threads : ℕ) : PinnedObject :=
  ⟨0, false, .running, List.replicate threads .idle⟩

/-- What holds between the steps of every run. -/
structure PinnedObject.Sound (o : PinnedObject) : Prop where
  /-- The count is the number of pins. -/
  count : o.count = o.users.count .pinned
  /-- Somebody holds a mutex that is locked. -/
  held : o.locked = true →
    (∃ user ∈ o.users, user = .notifying ∨ user = .leaving) ∨ o.owner = .testing ∨
      o.owner = .unlocking

variable {o o' : PinnedObject} {t : ℕ} {user : User}

/-- The number of pins after thread `t` has moved. -/
theorem count_pinned_set {users : List User} (ht : users[t]? = some user) (user' : User) :
    (users.set t user').count .pinned + (if user = .pinned then 1 else 0) =
      users.count .pinned + (if user' = .pinned then 1 else 0) := by
  obtain ⟨hlt, rfl⟩ := List.getElem?_eq_some_iff.mp ht
  have hpos : users[t] = .pinned → 0 < users.count .pinned := fun h =>
    List.count_pos_iff.mpr (h ▸ List.getElem_mem hlt)
  rw [List.count_set hlt]
  by_cases hold : users[t] = .pinned <;> by_cases hnew : user' = .pinned <;>
    simp only [hold, hnew, beq_iff_eq, if_true, if_false] <;> simp_all

/-- A thread that moves is there afterwards, as are the others. -/
theorem mem_set {users : List User} (ht : users[t]? = some user) (user' : User) :
    user' ∈ users.set t user' ∧ ∀ other ∈ users, other ≠ user → other ∈ users.set t user' := by
  obtain ⟨hlt, rfl⟩ := List.getElem?_eq_some_iff.mp ht
  refine ⟨List.mem_set hlt user', fun other hmem hne => ?_⟩
  obtain ⟨i, hi, rfl⟩ := List.mem_iff_getElem.mp hmem
  have hother : t ≠ i := by
    rintro rfl
    exact hne rfl
  rw [← List.getElem_set_ne hother (by simpa using hi)]
  exact List.getElem_mem _

/-- A thread moves that does not hold the mutex and has no part in the count. -/
theorem PinnedObject.Sound.retained (h : o.Sound) {user' : User} {count : ℕ}
    (ht : o.users[t]? = some user) (hfree : user = .idle ∨ user = .pinned)
    (hcount : count = (o.users.set t user').count .pinned) :
    ({ o with count := count, users := o.users.set t user' } : PinnedObject).Sound where
  count := hcount
  held := fun hlocked => by
    rcases h.held hlocked with ⟨other, hother, hholds⟩ | howner
    · refine .inl ⟨other, (mem_set ht user').2 other hother ?_, hholds⟩
      rintro rfl
      rcases hfree with rfl | rfl <;> simp at hholds
    · exact .inr howner

/-- A thread in a release moves; it holds the mutex afterwards, or has given it back. -/
theorem PinnedObject.Sound.released (h : o.Sound) {user' : User} {locked : Bool} {owner : Owner}
    (ht : o.users[t]? = some user) (hold : user ≠ .pinned) (hnew : user' ≠ .pinned)
    (hlocked : locked = true → user' = .notifying ∨ user' = .leaving) :
    ({ o with locked := locked, owner := owner, users := o.users.set t user' } :
      PinnedObject).Sound where
  count := by
    have hset := count_pinned_set ht user'
    rw [if_neg hold, if_neg hnew] at hset
    exact h.count.trans hset.symm
  held := fun htrue => .inl ⟨user', (mem_set ht user').1, hlocked htrue⟩

/-- The owner moves without the mutex. -/
theorem PinnedObject.Sound.ownerMove (h : o.Sound) {owner : Owner}
    (hfree : o.owner ≠ .testing ∧ o.owner ≠ .unlocking) :
    ({ o with owner := owner } : PinnedObject).Sound where
  count := h.count
  held := fun hlocked => .inl ((h.held hlocked).resolve_right (by simp [hfree]))

variable {label : PinStep}

/-- Every step keeps the invariant. -/
theorem PinnedObject.Sound.step (h : o.Sound) (hstep : o.step label = some o') :
    o'.Sound := by
  cases label with
  | retain t =>
    obtain ⟨⟨ht, -⟩, rfl⟩ := Run.of_guard hstep
    have hset := count_pinned_set ht .pinned
    exact h.retained ht (.inl rfl) (by rw [h.count]; simpa using hset.symm)
  | decrement t =>
    obtain ⟨ht, rfl⟩ := Run.of_guard hstep
    refine h.retained ht (.inr rfl) ?_
    have hset := count_pinned_set ht (if o.count = 1 then .releasing else .idle)
    have hnew : (if o.count = 1 then User.releasing else .idle) ≠ .pinned := by split <;> nofun
    rw [if_pos rfl, if_neg hnew, ← h.count] at hset
    omega
  | lock t =>
    obtain ⟨⟨ht, -⟩, rfl⟩ := Run.of_guard hstep
    exact h.released ht nofun nofun fun _ => .inl rfl
  | notify t =>
    obtain ⟨ht, rfl⟩ := Run.of_guard hstep
    exact h.released ht nofun nofun fun _ => .inr rfl
  | unlock t =>
    obtain ⟨ht, rfl⟩ := Run.of_guard hstep
    exact h.released ht nofun nofun nofun
  | announce | waitUntilEmpty | ownerWake | abandon | destroy | empty =>
    obtain ⟨howner, rfl⟩ := Run.of_guard hstep
    exact h.ownerMove (by simp [howner])
  | ownerLock =>
    obtain ⟨-, rfl⟩ := Run.of_guard hstep
    exact ⟨h.count, fun _ => .inr (.inl rfl)⟩
  | ownerTest =>
    obtain ⟨-, rfl⟩ := Run.of_guard hstep
    split
    · exact ⟨h.count, fun _ => .inr (.inr rfl)⟩
    · exact ⟨h.count, nofun⟩
  | ownerUnlock =>
    obtain ⟨-, rfl⟩ := Run.of_guard hstep
    exact ⟨h.count, nofun⟩

/-- An object that nobody uses is sound. -/
theorem PinnedObject.sound_init (threads : ℕ) : (PinnedObject.init threads).Sound where
  count := by simp [PinnedObject.init, List.count_replicate]
  held := nofun

/-! ## The condition on the callers -/

end LightRocm.Hsa
