import LightRocm.Memory.Pins

/-!
# The lifetime of allocations

As long as no release of memory fails halfway, the ranges of every copy lie in
allocations that stay intact until the copy has ended, and no memory is released
twice, whatever the threads do. A release that fails halfway leaves an entry
behind which the next copy accepts.
-/

namespace LightRocm.Memory

/-- The copy a thread is in. -/
def Task.accepted : Task → Option Accepted
  | .copySync accepted | .copying accepted => some accepted
  | .ready | .returned _ | .freeWait _ _ | .freeSync _ _ => none

/-- The pins of a thread. -/
def Task.pins (task : Task) : List Pin := task.accepted.elim [] Accepted.pins

/-- The entry a thread frees. -/
def Task.frees : Task → Option Pin
  | .freeWait kind ptr | .freeSync kind ptr => some (kind, ptr)
  | .ready | .returned _ | .copySync _ | .copying _ => none

/-- The number of pins on an entry. -/
def Sys.pinned (sys : Sys) (p : Pin) : ℕ := (sys.threads.map fun task => task.pins.count p).sum

/-- What holds between the sections. -/
structure Sys.Sound (backend : Backend) (sys : Sys) : Prop where
  /-- The books agree with the pins of the threads. -/
  books : sys.shared.Books sys.pinned
  /-- The ranges of copies lie in entries. -/
  within : ∀ (t : ℕ) (task : Task) (accepted : Accepted), sys.threads[t]? = some task →
    task.accepted = some accepted →
    accepted.copy.DeviceWithin accepted.bases sys.shared ∧
      accepted.copy.HostWithin accepted.host sys.shared
  /-- A copy keeps the lock or has pinned the entries. -/
  held : ∀ (t : ℕ) (task : Task) (accepted : Accepted), sys.threads[t]? = some task →
    task.accepted = some accepted →
    (backend = .lightRocr → sys.owner = some t) ∧ (backend ≠ .lightRocr → accepted.Pinned)
  /-- What is being freed is flagged. -/
  freeing : ∀ (t : ℕ) (task : Task) (p : Pin), sys.threads[t]? = some task → task.frees = some p →
    ∃ a, sys.shared.find p.1 p.2 = some a ∧ a.destroying = true
  /-- One thread frees it. -/
  alone : ∀ (t t' : ℕ) (task task' : Task) (p : Pin), sys.threads[t]? = some task →
    sys.threads[t']? = some task' → task.frees = some p → task'.frees = some p → t = t'
  /-- After the wait it has no pins. -/
  quiet : ∀ (t : ℕ) (kind : Kind) (ptr : ℕ), sys.threads[t]? = some (.freeSync kind ptr) →
    sys.pinned (kind, ptr) = 0

/-- Entries stay, but for the one that is `gone`, and with their flags, but for the one
that is `flagged`. -/
def State.Keeps (s s' : State) (gone flagged : Option Pin) : Prop :=
  ∀ kind base a, s.find kind base = some a → gone ≠ some (kind, base) → ∃ a',
    s'.find kind base = some a' ∧ a'.base = a.base ∧ a'.deviceIndex = a.deviceIndex ∧
      a'.size = a.size ∧ a'.id = a.id ∧
      (flagged ≠ some (kind, base) → a'.destroying = a.destroying)

variable {s s' : State} {sys sys' : Sys} {backend : Backend} {t : ℕ} {old : Task} {kind : Kind} {ptr : ℕ}

/-- A change of counts keeps the entries. -/
theorem State.Same.keeps (h : s.Same s') : s.Keeps s' none none := by
  intro kind base a ha _
  obtain ⟨a', ha', heq⟩ := h.find_some ha
  obtain ⟨hb, hd, hs, hflag, hid⟩ := Allocation.of_fixed heq
  exact ⟨a', ha', hb, hd, hs, hid, fun _ => hflag⟩

/-- A change of a flag keeps the entries. -/
theorem State.keeps_flag (s : State) (kind : Kind) (ptr : ℕ) (flag : Bool) :
    s.Keeps (s.update kind ptr fun a => { a with destroying := flag }) none (some (kind, ptr)) := by
  intro kind' base a ha _
  rw [State.find_update s kind ptr (g := fun a => { a with destroying := flag }) fun _ => rfl]
  split
  · rename_i heq
    obtain ⟨rfl, rfl⟩ := heq
    rw [ha]
    exact ⟨_, rfl, rfl, rfl, rfl, rfl, fun hne => absurd rfl hne⟩
  · exact ⟨a, ha, rfl, rfl, rfl, rfl, fun _ => rfl⟩

/-- A new entry leaves the others alone. -/
theorem State.keeps_insert {a : Allocation} (hnone : s.find kind a.base = none)
    (halloc : s'.allocations = Function.update s.allocations kind (s.others kind a.base ++ [a])) :
    s.Keeps s' none none := by
  intro kind' base a' ha _
  refine ⟨a', (State.find_inserted halloc kind' base).trans ((if_neg ?_).trans ha), rfl, rfl, rfl,
    rfl, fun _ => rfl⟩
  rintro ⟨rfl, rfl⟩
  rw [hnone] at ha
  cases ha

/-- An entry that is taken out leaves the others alone. -/
theorem State.keeps_erase
    (halloc : s'.allocations = Function.update s.allocations kind (s.others kind ptr)) :
    s.Keeps s' (some (kind, ptr)) none := by
  intro kind' base a ha hgone
  refine ⟨a, (State.find_erased halloc kind' base).trans ((if_neg ?_).trans ha), rfl, rfl, rfl,
    rfl, fun _ => rfl⟩
  rintro ⟨rfl, rfl⟩
  exact hgone rfl

/-- A range lies in an entry that stays. -/
theorem State.Keeps.covers {gone flagged : Option Pin} (h : s.Keeps s' gone flagged) {base : ℕ}
    (hgone : gone ≠ some (kind, base)) {device address size : ℕ}
    (hfind : ∃ a, s.find kind base = some a ∧ a.Covers device address size) :
    ∃ a, s'.find kind base = some a ∧ a.Covers device address size := by
  obtain ⟨a, ha, hcovers⟩ := hfind
  obtain ⟨a', ha', hb, hd, hs, -⟩ := h kind base a ha hgone
  exact ⟨a', ha', by rw [Allocation.Covers, hb, hd, hs]; exact hcovers⟩

variable {task : Task}

/-- A thread holds no more pins than there are. -/
theorem Sys.count_le_pinned (ht : sys.threads[t]? = some task) (p : Pin) :
    task.pins.count p ≤ sys.pinned p :=
  Run.le_sum_map (fun task : Task => task.pins.count p) ht

/-- The pins after a thread has moved. -/
theorem Sys.pinned_finish (ht : sys.threads[t]? = some old) (result : Task × State) (p : Pin) :
    (sys.finish backend t result).pinned p =
      sys.pinned p - old.pins.count p + result.1.pins.count p := by
  have hsum := Run.sum_map_set (fun task : Task => task.pins.count p) ht result.1
  have hle := Sys.count_le_pinned ht p
  unfold Sys.pinned at hle ⊢
  dsimp only [Sys.finish] at hsum ⊢
  omega

variable {result : Task × State}

/-- The threads after one has moved. -/
theorem Sys.threads_finish (ht : sys.threads[t]? = some old) {t' : ℕ}
    (h : (sys.finish backend t result).threads[t']? = some task) :
    (t' = t ∧ task = result.1) ∨ (t' ≠ t ∧ sys.threads[t']? = some task) := by
  have hlt := (List.getElem?_eq_some_iff.mp ht).1
  by_cases heq : t' = t
  · subst heq
    exact Or.inl ⟨rfl, by simpa [Sys.finish, hlt] using h.symm⟩
  · exact Or.inr ⟨heq, by simpa [Sys.finish, List.getElem?_set_ne (Ne.symm heq)] using h⟩

/-- No other thread frees the entry. -/
def Sys.OnlyFrees (sys : Sys) (t : ℕ) (p : Pin) : Prop :=
  ∀ (t' : ℕ) (task : Task), t' ≠ t → sys.threads[t']? = some task → task.frees ≠ some p

/-- A section of thread `t` keeps the invariant, and pinned entries stay with their memory. -/
structure Sys.Preserves (backend : Backend) (sys : Sys) (t : ℕ) (result : Task × State) : Prop where
  sound : (sys.finish backend t result).Sound backend
  stays : ∀ kind base a, sys.shared.find kind base = some a → 0 < sys.pinned (kind, base) →
    ∃ a', result.2.find kind base = some a' ∧ a'.id = a.id

/-- Threads without pins do not change the pins. -/
theorem Sys.pinned_unchanged (sys : Sys) (hold : old.pins = []) (hnew : task.pins = []) :
    (fun p => sys.pinned p - old.pins.count p + task.pins.count p) = sys.pinned := by
  funext p
  rw [hold, hnew]
  simp

/-- A thread that frees an entry is the only one. -/
theorem Sys.Sound.onlyFrees (h : sys.Sound backend) (ht : sys.threads[t]? = some old) {p : Pin}
    (hfrees : old.frees = some p) : sys.OnlyFrees t p :=
  fun t' task hne hthread htask => hne (h.alone t' t task old p hthread ht htask hfrees)

/-- A thread that frees an entry has no pins. -/
theorem Task.pins_of_frees {p : Pin} (h : task.frees = some p) : task.pins = [] := by
  cases task with
  | freeWait kind ptr => rfl
  | freeSync kind ptr => rfl
  | ready => cases h
  | returned status => cases h
  | copySync accepted => cases h
  | copying accepted => cases h

/-- The next task of a thread has pins of entries that it has pinned or that nobody frees, and a
copy that is inside of its entries and keeps them. -/
structure Sys.Admits (backend : Backend) (sys : Sys) (old : Task) (result : Task × State) :
    Prop where
  pins : ∀ p ∈ result.1.pins,
    p ∈ old.pins ∨ ∃ a, sys.shared.find p.1 p.2 = some a ∧ a.destroying = false
  within : ∀ accepted, result.1.accepted = some accepted →
    accepted.copy.DeviceWithin accepted.bases result.2 ∧
      accepted.copy.HostWithin accepted.host result.2
  held : ∀ accepted, result.1.accepted = some accepted →
    (backend = .lightRocr → result.1.keepsLock backend = true) ∧
      (backend ≠ .lightRocr → accepted.Pinned)

variable {inputs : Inputs} {accepted : Accepted}

section Sections

variable (h : sys.Sound backend) (ht : sys.threads[t]? = some old)
  (howner : sys.owner = none ∨ sys.owner = some t)

include h ht howner

/-- A section of thread `t` keeps the invariant if it does what it says to the entries
and the pins. -/
theorem Sys.Sound.finish {gone flagged : Option Pin}
    (hbooks : result.2.Books fun p => sys.pinned p - old.pins.count p + result.1.pins.count p)
    (hkeeps : sys.shared.Keeps result.2 gone flagged)
    (hgone : ∀ p, gone = some p → sys.pinned p = 0)
    (honly : ∀ p, gone = some p ∨ flagged = some p → sys.OnlyFrees t p)
    (hadmits : sys.Admits backend old result)
    (hfrees : ∀ p, result.1.frees = some p →
      (∃ a, result.2.find p.1 p.2 = some a ∧ a.destroying = true) ∧ sys.OnlyFrees t p)
    (hquiet : ∀ kind ptr, result.1 = .freeSync kind ptr → sys.pinned (kind, ptr) = 0) :
    sys.Preserves backend t result := by
  have hpinned : (sys.finish backend t result).pinned =
      fun p => sys.pinned p - old.pins.count p + result.1.pins.count p :=
    funext fun p => Sys.pinned_finish ht result p
  -- A pinned entry does not go away.
  have hstays : ∀ {t' : ℕ} {task : Task} {p : Pin}, sys.threads[t']? = some task → p ∈ task.pins → gone ≠ some p := by
    intro t' task p hthread hp heq
    have hle := Sys.count_le_pinned hthread p
    rw [hgone p heq] at hle
    exact absurd (List.count_pos_iff.mpr hp) (by omega)
  refine ⟨{
    books := hpinned ▸ hbooks
    within := fun t' task accepted hthread haccepted => ?_
    held := fun t' task accepted hthread haccepted => ?_
    freeing := fun t' task p hthread hp => ?_
    alone := fun t₁ t₂ task₁ task₂ p hthread₁ hthread₂ hp₁ hp₂ => ?_
    quiet := fun t' kind ptr hthread => ?_ }, fun kind base a ha hpos => ?_⟩
  · rcases Sys.threads_finish ht hthread with ⟨rfl, rfl⟩ | ⟨hne, hthread⟩
    · exact hadmits.within accepted haccepted
    · obtain ⟨hdevice, hhost⟩ := h.within t' task accepted hthread haccepted
      obtain ⟨hlock, hpins⟩ := h.held t' task accepted hthread haccepted
      have hback : backend ≠ .lightRocr := by
        intro heq
        rcases howner with hfree | hmine
        · rw [hlock heq] at hfree
          cases hfree
        · exact hne (Option.some.inj ((hlock heq).symm.trans hmine))
      have hmem : ∀ p ∈ accepted.pins, p ∈ task.pins := by
        intro p hp
        rw [Task.pins, haccepted]
        exact hp
      refine ⟨fun address haddress => ?_, fun base hbase => ?_⟩
      · obtain ⟨base, hbase, hfind⟩ := hdevice address haddress
        exact ⟨base, hbase, hkeeps.covers
          (hstays hthread (hmem _ ((hpins hback).device base hbase))) hfind⟩
      · obtain ⟨address, a, haddress, hfind⟩ := hhost base hbase
        obtain ⟨a', hfind'⟩ := hkeeps.covers
          (hstays hthread (hmem _ ((hpins hback).host base hbase))) ⟨a, hfind⟩
        exact ⟨address, a', haddress, hfind'⟩
  · rcases Sys.threads_finish ht hthread with ⟨rfl, rfl⟩ | ⟨hne, hthread⟩
    · refine ⟨fun heq => ?_, (hadmits.held accepted haccepted).2⟩
      simp [Sys.finish, (hadmits.held accepted haccepted).1 heq]
    · refine ⟨fun heq => ?_, (h.held t' task accepted hthread haccepted).2⟩
      have hlock := (h.held t' task accepted hthread haccepted).1 heq
      rcases howner with hfree | hmine
      · rw [hlock] at hfree
        cases hfree
      · exact absurd (Option.some.inj (hlock.symm.trans hmine)) hne
  · rcases Sys.threads_finish ht hthread with ⟨rfl, rfl⟩ | ⟨hne, hthread⟩
    · exact (hfrees p hp).1
    · obtain ⟨a, ha, hflag⟩ := h.freeing t' task p hthread hp
      have hsafe : ¬ (gone = some p ∨ flagged = some p) := fun heq =>
        honly p heq t' task hne hthread hp
      obtain ⟨hnotGone, hnotFlagged⟩ := not_or.mp hsafe
      obtain ⟨a', ha', -, -, -, -, hsame⟩ := hkeeps p.1 p.2 a ha hnotGone
      exact ⟨a', ha', (hsame hnotFlagged).trans hflag⟩
  · rcases Sys.threads_finish ht hthread₁ with ⟨rfl, rfl⟩ | ⟨hne₁, hold₁⟩ <;>
      rcases Sys.threads_finish ht hthread₂ with ⟨rfl, rfl⟩ | ⟨hne₂, hold₂⟩
    · rfl
    · exact absurd hp₂ ((hfrees p hp₁).2 t₂ task₂ hne₂ hold₂)
    · exact absurd hp₁ ((hfrees p hp₂).2 t₁ task₁ hne₁ hold₁)
    · exact h.alone t₁ t₂ task₁ task₂ p hold₁ hold₂ hp₁ hp₂
  · rw [hpinned]
    have hzero : sys.pinned (kind, ptr) = 0 := by
      rcases Sys.threads_finish ht hthread with ⟨rfl, hresult⟩ | ⟨hne, hthread⟩
      · exact hquiet kind ptr hresult.symm
      · exact h.quiet t' kind ptr hthread
    have hnone : result.1.pins.count (kind, ptr) = 0 := by
      refine List.count_eq_zero.mpr fun hmem => ?_
      rcases Sys.threads_finish ht hthread with ⟨rfl, hresult⟩ | ⟨hne, hthread⟩
      · rw [← hresult] at hmem
        cases hmem
      · rcases hadmits.pins _ hmem with hold | ⟨a, ha, hfree⟩
        · have hle := Sys.count_le_pinned ht (kind, ptr)
          exact absurd (List.count_pos_iff.mpr hold) (by omega)
        · obtain ⟨a', ha', hflag⟩ := h.freeing t' _ (kind, ptr) hthread rfl
          rw [ha] at ha'
          obtain rfl := Option.some.inj ha'
          rw [hfree] at hflag
          cases hflag
    dsimp only
    omega
  · have hnotGone : gone ≠ some (kind, base) := fun heq => by
      rw [hgone _ heq] at hpos
      cases hpos
    obtain ⟨a', ha', -, -, -, hid, -⟩ := hkeeps kind base a ha hnotGone
    exact ⟨a', ha', hid⟩

/-- A section that changes only counts keeps the invariant. -/
theorem Sys.Sound.finish_same (hsame : sys.shared.Same result.2)
    (hbooks : result.2.Books fun p => sys.pinned p - old.pins.count p + result.1.pins.count p)
    (hadmits : sys.Admits backend old result)
    (hfrees : ∀ p, result.1.frees = some p → old.frees = some p)
    (hquiet : ∀ kind ptr, result.1 = .freeSync kind ptr → sys.pinned (kind, ptr) = 0) :
    sys.Preserves backend t result := by
  refine h.finish ht howner hbooks hsame.keeps nofun (fun p hp => ?_) hadmits
    (fun p hp => ⟨?_, fun t' task hne hthread htask => ?_⟩) hquiet
  · rcases hp with hp | hp <;> cases hp
  · obtain ⟨a, ha, hflag⟩ := h.freeing t old p ht (hfrees p hp)
    obtain ⟨a', ha', heq⟩ := hsame.find_some ha
    exact ⟨a', ha', (Allocation.of_fixed heq).2.2.2.1.trans hflag⟩
  · exact hne (h.alone t' t task old p hthread ht htask (hfrees p hp))

/-- A section of a call without pins that is over, or goes on to wait, and changes nothing. -/
theorem Sys.Sound.finish_unchanged (hold : old.pins = []) (hnone : task.accepted = none)
    (hfrees : ∀ p, task.frees = some p → old.frees = some p)
    (hquiet : ∀ kind ptr, task = .freeSync kind ptr → sys.pinned (kind, ptr) = 0) :
    sys.Preserves backend t (task, sys.shared) := by
  have hpins : task.pins = [] := by rw [Task.pins, hnone]; rfl
  refine h.finish_same ht howner (.refl _) ?_ ⟨?_, ?_, ?_⟩ hfrees hquiet
  · rw [sys.pinned_unchanged hold hpins]
    exact h.books
  · simp [hpins]
  · simp [hnone]
  · simp [hnone]

/-- Memory has been allocated. -/
theorem Sys.Sound.malloc (hold : old.pins = []) {device size : ℕ}
    (hfresh : backend = .hsa → ∀ base, inputs.allocated = some base →
      sys.shared.find kind base = none) :
    sys.Preserves backend t (Memory.malloc backend kind device size inputs sys.shared) := by
  have hreturned : ∀ status, sys.Preserves backend t (.returned status, sys.shared) :=
    fun status => h.finish_unchanged ht howner hold rfl nofun nofun
  unfold Memory.malloc
  split
  · exact hreturned _
  · split
    · exact hreturned _
    · rename_i base hbase
      split
      · exact hreturned _
      · rename_i hguard
        have hnone : sys.shared.find kind base = none := by
          by_cases hback : backend = .hsa
          · exact hfresh hback base hbase
          · by_contra hsome
            exact hguard ⟨hback, Or.inr (Option.isSome_iff_ne_none.mpr hsome)⟩
        refine h.finish ht howner ?_ (State.keeps_insert
          (a := ⟨base, device, size, 0, false, sys.shared.nextId⟩) hnone rfl) nofun ?_
            ⟨nofun, nofun, nofun⟩ nofun nofun
        · rw [sys.pinned_unchanged hold rfl]
          exact h.books.insert (a := ⟨base, device, size, 0, false, sys.shared.nextId⟩) hnone rfl rfl
            rfl rfl rfl rfl
        · rintro p (hp | hp) <;> cases hp

/-- A call begins to free an entry. -/
theorem Sys.Sound.beginFree (hold : old.pins = []) {device : ℕ} :
    sys.Preserves backend t (Memory.beginFree kind device ptr sys.shared) := by
  unfold Memory.beginFree
  split
  · exact h.finish_unchanged ht howner hold rfl nofun nofun
  · rename_i a ha
    split
    · exact h.finish_unchanged ht howner hold rfl nofun nofun
    · rename_i hfree
      have hflag : a.destroying = false := by simpa using fun hd => hfree (Or.inr hd)
      -- Nobody frees the entry as it is not flagged.
      have honly : sys.OnlyFrees t (kind, ptr) := by
        intro t' task _ hthread hfrees
        obtain ⟨a', ha', hflag'⟩ := h.freeing t' task (kind, ptr) hthread hfrees
        rw [ha] at ha'
        obtain rfl := Option.some.inj ha'
        rw [hflag] at hflag'
        cases hflag'
      refine h.finish ht howner ?_ (State.keeps_flag sys.shared kind ptr true) nofun ?_
        ⟨nofun, nofun, nofun⟩ ?_ nofun
      · rw [sys.pinned_unchanged hold rfl]
        exact h.books.update kind ptr fun _ => ⟨rfl, rfl, rfl⟩
      · rintro p (hp | hp)
        · cases hp
        · obtain rfl := Option.some.inj hp
          exact honly
      · intro p hp
        obtain rfl := Option.some.inj hp
        refine ⟨⟨{ a with destroying := true }, ?_, rfl⟩, honly⟩
        rw [State.find_update sys.shared kind ptr (g := fun a => { a with destroying := true })
          fun _ => rfl, if_pos ⟨rfl, rfl⟩, ha]
        rfl

/-- The entry is not freed after all. -/
theorem Sys.Sound.abandonFree (hfrees : old.frees = some (kind, ptr)) (status : Status) :
    sys.Preserves backend t (.returned status, Memory.abandonFree kind ptr sys.shared) := by
  refine h.finish ht howner ?_ (State.keeps_flag sys.shared kind ptr false) nofun ?_
    ⟨nofun, nofun, nofun⟩ nofun nofun
  · rw [sys.pinned_unchanged (Task.pins_of_frees hfrees) rfl]
    exact h.books.update kind ptr fun _ => ⟨rfl, rfl, rfl⟩
  · rintro p (hp | hp)
    · cases hp
    · obtain rfl := Option.some.inj hp
      exact h.onlyFrees ht hfrees

/-- An entry without pins is freed, if its memory is not released in parts. -/
theorem Sys.Sound.finishFree (hfrees : old.frees = some (kind, ptr))
    (hzero : sys.pinned (kind, ptr) = 0) (hwhole : backend = .hsa ∨ inputs.release ≠ .partly)
    (hresult : Memory.finishFree backend kind ptr inputs sys.shared = some result) :
    sys.Preserves backend t result := by
  unfold Memory.finishFree at hresult
  split at hresult
  · obtain rfl := Option.some.inj hresult
    exact h.abandonFree ht howner hfrees _
  · split at hresult
    · cases hresult
    · rename_i a ha
      cases hrelease : inputs.release with
      | done =>
        rw [hrelease] at hresult
        obtain rfl := Option.some.inj hresult
        refine h.finish ht howner ?_ (State.keeps_erase rfl) ?_ ?_ ⟨nofun, nofun, nofun⟩ nofun nofun
        · rw [sys.pinned_unchanged (Task.pins_of_frees hfrees) rfl]
          exact h.books.erase ha hzero rfl rfl rfl rfl
        · intro p hp
          obtain rfl := Option.some.inj hp
          exact hzero
        · rintro p (hp | hp)
          · obtain rfl := Option.some.inj hp
            exact h.onlyFrees ht hfrees
          · cases hp
      | refused =>
        rw [hrelease] at hresult
        obtain rfl := Option.some.inj hresult
        exact h.abandonFree ht howner hfrees _
      | partly =>
        rw [hrelease] at hresult
        have hback := hwhole.resolve_right fun hne => hne hrelease
        rw [if_pos hback] at hresult
        obtain rfl := Option.some.inj hresult
        exact h.abandonFree ht howner hfrees _

/-- A call that frees an entry wakes up. -/
theorem Sys.Sound.resumeFree (hold : old = .freeWait kind ptr)
    (hwhole : backend = .hsa ∨ inputs.release ≠ .partly)
    (hresult : Memory.resumeFree backend kind ptr inputs sys.shared = some result) :
    sys.Preserves backend t result := by
  subst hold
  obtain ⟨a, ha, -⟩ := h.freeing t _ (kind, ptr) ht rfl
  have hcount := h.books.count kind ptr a ha
  unfold Memory.resumeFree at hresult
  rw [ha] at hresult
  dsimp only at hresult
  split at hresult
  · obtain rfl := Option.some.inj hresult
    exact h.finish_unchanged ht howner rfl rfl (fun p hp => hp) nofun
  · rename_i hactive
    have hzero : sys.pinned (kind, ptr) = 0 := by omega
    split at hresult
    · exact h.finishFree ht howner rfl hzero hwhole hresult
    · obtain rfl := Option.some.inj hresult
      refine h.finish_unchanged ht howner rfl rfl (fun p hp => hp) fun kind' ptr' heq => ?_
      obtain ⟨rfl, rfl⟩ := Task.freeSync.inj heq
      exact hzero

/-- A copy is accepted or refused. -/
theorem Sys.Sound.memcpy (hold : old.pins = []) {copy : Copy} :
    sys.Preserves backend t ((Call.memcpy copy).begin backend inputs sys.shared) := by
  simp only [Call.begin]
  split
  · exact h.finish_unchanged ht howner hold rfl nofun nofun
  · split
    · rename_i s' hrefused
      obtain ⟨hbooks, hsame⟩ := accept_none h.books hrefused
      refine h.finish_same ht howner hsame ?_ ⟨nofun, nofun, nofun⟩ nofun nofun
      rw [sys.pinned_unchanged hold rfl]
      exact hbooks
    · rename_i accepted s' haccept
      have hspec := accept_some h.books haccept
      -- Both backends' tasks hold the same copy.
      have htask : ∀ task : Task, task.accepted = some accepted → task.frees = none →
          (backend = .lightRocr → task.keepsLock backend = true) →
          sys.Preserves backend t (task, s') := by
        intro task hsome hnone hlock
        have hpins : task.pins = accepted.pins := by rw [Task.pins, hsome]; rfl
        refine h.finish_same ht howner hspec.same ?_ ⟨?_, ?_, ?_⟩ ?_ ?_
        · simpa [hold, hpins] using hspec.books
        · intro p hp
          rw [hpins] at hp
          exact Or.inr (hspec.free p hp)
        · intro accepted' haccepted
          obtain rfl := Option.some.inj (hsome.symm.trans haccepted)
          rw [hspec.arguments]
          exact ⟨hspec.device, hspec.host⟩
        · intro accepted' haccepted
          obtain rfl := Option.some.inj (hsome.symm.trans haccepted)
          exact ⟨hlock, hspec.pinned⟩
        · intro p hp
          rw [hnone] at hp
          cases hp
        · rintro kind ptr rfl
          cases hsome
      split
      · rename_i hback
        exact htask _ rfl rfl fun _ => by simp [Task.keepsLock, hback]
      · rename_i hback
        exact htask _ rfl rfl fun heq => absurd heq hback

/-- A copy has ended. -/
theorem Sys.Sound.copied (hold : old.accepted = some accepted) (status : Status) :
    sys.Preserves backend t (.returned status, releasePins accepted.pins sys.shared) := by
  have hpins : old.pins = accepted.pins := by rw [Task.pins, hold]; rfl
  have hle : ∀ p, accepted.pins.count p ≤ sys.pinned p := fun p => hpins ▸ Sys.count_le_pinned ht p
  obtain ⟨hbooks, hsame⟩ := h.books.releasePins hle
  refine h.finish_same ht howner hsame ?_ ⟨nofun, nofun, nofun⟩ nofun nofun
  rw [hpins]
  exact hbooks

/-- The next section of a call keeps the invariant. -/
theorem Sys.Sound.resume (hwhole : backend = .hsa ∨ inputs.release ≠ .partly)
    (hresult : old.resume backend inputs sys.shared = some result) :
    sys.Preserves backend t result := by
  cases old with
  | ready => cases hresult
  | returned status => cases hresult
  | freeWait kind ptr => exact h.resumeFree ht howner rfl hwhole hresult
  | freeSync kind ptr =>
    exact h.finishFree ht howner rfl (h.quiet t kind ptr ht) hwhole hresult
  | copySync accepted =>
    simp only [Task.resume] at hresult
    split at hresult
    · obtain rfl := Option.some.inj hresult
      exact h.copied ht howner rfl _
    · obtain rfl := Option.some.inj hresult
      obtain ⟨hlock, hpinned⟩ := h.held t _ accepted ht rfl
      refine h.finish_same ht howner (.refl _) ?_
        ⟨fun p hp => Or.inl hp, fun accepted' heq => ?_, fun accepted' heq => ?_⟩ nofun nofun
      · have hcount : (fun p => sys.pinned p - (Task.copySync accepted).pins.count p +
            (Task.copying accepted).pins.count p) = sys.pinned :=
          funext fun p => Nat.sub_add_cancel (Sys.count_le_pinned ht p)
        rw [hcount]
        exact h.books
      · obtain rfl := Option.some.inj heq
        exact h.within t _ accepted ht rfl
      · obtain rfl := Option.some.inj heq
        exact ⟨fun hback => by simp [Task.keepsLock, hback], hpinned⟩
  | copying accepted =>
    obtain rfl := Option.some.inj hresult
    exact h.copied ht howner rfl _

end Sections

/-- The entries do not depend on the order of a registry. -/
theorem State.Keyed.find_perm (h : s.Keyed) {entries : List Allocation}
    (hperm : entries.Perm (s.allocations kind))
    (halloc : s'.allocations = Function.update s.allocations kind entries) (kind' : Kind) (base : ℕ) :
    s'.find kind' base = s.find kind' base := by
  have hkeyed : s'.Keyed := h.of_allocations halloc ((hperm.map Allocation.base).nodup_iff.mpr (h kind))
  have hmem : ∀ a, a ∈ s'.allocations kind' ↔ a ∈ s.allocations kind' := by
    intro a
    rw [halloc]
    by_cases heq : kind' = kind
    · subst heq
      rw [Function.update_self]
      exact hperm.mem_iff
    · rw [Function.update_of_ne heq]
  cases hfind : s.find kind' base with
  | some a =>
    rw [← State.base_of_find hfind]
    exact hkeyed.find ((hmem a).mpr (List.mem_of_find?_eq_some hfind))
  | none =>
    refine List.find?_eq_none.mpr fun a ha => ?_
    exact List.find?_eq_none.mp hfind a ((hmem a).mp ha)

/-- A change of the order of a registry keeps the invariant. -/
theorem Sys.Sound.rehash (h : sys.Sound backend) {entries : List Allocation}
    (hperm : entries.Perm (sys.shared.allocations kind)) :
    Sound backend { sys with shared := { sys.shared with
      allocations := Function.update sys.shared.allocations kind entries } } := by
  have hfind : ∀ kind' base, State.find { sys.shared with
      allocations := Function.update sys.shared.allocations kind entries } kind' base =
        sys.shared.find kind' base := h.books.keyed.find_perm hperm rfl
  have hsame : sys.shared.Same { sys.shared with
      allocations := Function.update sys.shared.allocations kind entries } :=
    ⟨fun kind base => by rw [hfind], rfl, rfl, rfl⟩
  refine {
    books := h.books.of_same hsame (h.books.keyed.of_allocations rfl
      ((hperm.map Allocation.base).nodup_iff.mpr (h.books.keyed kind))) (fun kind base a ha => ?_)
      h.books.pinned
    within := fun t task accepted ht haccepted => ?_
    held := h.held
    freeing := fun t task p ht hp => ?_
    alone := h.alone
    quiet := h.quiet }
  · rw [hfind] at ha
    exact h.books.count kind base a ha
  · obtain ⟨hdevice, hhost⟩ := h.within t task accepted ht haccepted
    exact ⟨hdevice.of_same hsame, hhost.of_same hsame⟩
  · rw [hfind]
    exact h.freeing t task p ht hp

/-- No release of memory fails after a part of it has succeeded, and the HSA runtime returns
no address of memory that is allocated. -/
def Sys.ReleasesWhole (backend : Backend) (sys : Sys) (label : Label) : Prop :=
  (backend = .hsa ∨ label.inputs.release ≠ .partly) ∧
    match label with
    | .call _ (.malloc kind _ _) inputs =>
      backend = .hsa → ∀ base, inputs.allocated = some base → sys.shared.find kind base = none
    | _ => True

/-- The entries a copy uses. -/
def Accepted.uses (accepted : Accepted) : List Pin := pinsOf accepted.bases accepted.host

/-- The copies that go on keep their entries. -/
def Sys.KeepsUsed (sys sys' : Sys) : Prop :=
  ∀ (t : ℕ) (task task' : Task) (accepted : Accepted), sys.threads[t]? = some task →
    task.accepted = some accepted → sys'.threads[t]? = some task' → task'.accepted = some accepted →
    ∀ p ∈ accepted.uses, ∀ a, sys.shared.find p.1 p.2 = some a →
      ∃ a', sys'.shared.find p.1 p.2 = some a' ∧ a'.id = a.id

/-- A section of a call that is in a copy and goes on with it changes nothing. -/
theorem Task.resume_accepted (htask : task.accepted = some accepted)
    (h : task.resume backend inputs s = some result) (hnext : result.1.accepted = some accepted) :
    result.2 = s := by
  cases task with
  | copySync accepted' =>
    simp only [Task.resume] at h
    split at h
    · obtain rfl := Option.some.inj h
      cases hnext
    · obtain rfl := Option.some.inj h
      rfl
  | copying accepted' =>
    obtain rfl := Option.some.inj h
    cases hnext
  | ready => cases htask
  | returned status => cases htask
  | freeWait kind ptr => cases htask
  | freeSync kind ptr => cases htask

/-- What a copy of another thread uses is pinned. -/
theorem Sys.Sound.pinned_of_uses (h : sys.Sound backend) {t' : ℕ}
    (ht : sys.threads[t']? = some task) (htask : task.accepted = some accepted)
    (howner : sys.owner ≠ some t') {p : Pin} (hp : p ∈ accepted.uses) : 0 < sys.pinned p := by
  obtain ⟨hlock, hpinned⟩ := h.held t' task accepted ht htask
  have hpins := hpinned fun heq => howner (hlock heq)
  have hmem : p ∈ accepted.pins := by
    rcases List.mem_append.mp hp with hp | hp
    · obtain ⟨base, hbase, rfl⟩ := List.mem_map.mp hp
      exact hpins.device base hbase
    · obtain ⟨base, hbase, rfl⟩ := List.mem_map.mp hp
      exact hpins.host base (Option.mem_toList.mp hbase)
  have hcount : 0 < task.pins.count p := by
    rw [Task.pins, htask]
    exact List.count_pos_iff.mpr hmem
  exact hcount.trans_le (Sys.count_le_pinned ht p)

/-- A section keeps what copies use. -/
theorem Sys.Preserves.keepsUsed (h : sys.Sound backend) (ht : sys.threads[t]? = some old)
    (howner : sys.owner = none ∨ sys.owner = some t) (hresult : sys.Preserves backend t result)
    (hown : ∀ accepted, old.accepted = some accepted → result.1.accepted = some accepted →
      result.2 = sys.shared) :
    sys.KeepsUsed (sys.finish backend t result) := by
  intro t' task task' accepted hthread htask hthread' htask' p hp a ha
  rcases Sys.threads_finish ht hthread' with ⟨rfl, rfl⟩ | ⟨hne, -⟩
  · obtain rfl := Option.some.inj (ht.symm.trans hthread)
    refine ⟨a, ?_, rfl⟩
    change result.2.find p.1 p.2 = some a
    rw [hown accepted htask htask']
    exact ha
  · have hother : sys.owner ≠ some t' := by
      rcases howner with hfree | hmine
      · rw [hfree]
        nofun
      · rw [hmine]
        exact fun heq => hne (Option.some.inj heq).symm
    exact hresult.stays p.1 p.2 a ha (h.pinned_of_uses hthread htask hother hp)

/-- A step keeps the invariant and what copies use. -/
theorem Sys.Sound.step (h : sys.Sound backend) {label : Label}
    (hwhole : sys.ReleasesWhole backend label) (hstep : sys.step backend label = some sys') :
    sys'.Sound backend ∧ sys.KeepsUsed sys' := by
  cases label with
  | call t call inputs =>
    simp only [Sys.step] at hstep
    obtain ⟨hfree, hstep⟩ := Option.ite_none_right_eq_some.mp hstep
    have hbegin : ∀ old, sys.threads[t]? = some old → old.accepted = none →
        (sys.finish backend t (call.begin backend inputs sys.shared)).Sound backend ∧
          sys.KeepsUsed (sys.finish backend t (call.begin backend inputs sys.shared)) := by
      intro old ht hnone
      have hold : old.pins = [] := by rw [Task.pins, hnone]; rfl
      have hresult : sys.Preserves backend t (call.begin backend inputs sys.shared) := by
        cases call with
        | malloc kind device size => exact h.malloc ht (Or.inl hfree) hold hwhole.2
        | free kind device ptr => exact h.beginFree ht (Or.inl hfree) hold
        | memcpy copy => exact h.memcpy ht (Or.inl hfree) hold
        | synchronize device => exact h.finish_unchanged ht (Or.inl hfree) hold rfl nofun nofun
      refine ⟨hresult.sound, hresult.keepsUsed h ht (Or.inl hfree) fun accepted hsome => ?_⟩
      rw [hnone] at hsome
      cases hsome
    split at hstep
    · rename_i ht
      obtain rfl := Option.some.inj hstep
      exact hbegin _ ht rfl
    · rename_i status ht
      obtain rfl := Option.some.inj hstep
      exact hbegin _ ht rfl
    · cases hstep
  | resume t inputs =>
    simp only [Sys.step] at hstep
    obtain ⟨howner, hstep⟩ := Option.ite_none_right_eq_some.mp hstep
    split at hstep
    · rename_i task ht
      obtain ⟨result, hnext, rfl⟩ := Option.map_eq_some_iff.mp hstep
      have hresult := h.resume ht howner hwhole.1 hnext
      exact ⟨hresult.sound, hresult.keepsUsed h ht howner fun accepted htask hsome =>
        Task.resume_accepted htask hnext hsome⟩
    · cases hstep
  | rehash kind entries =>
    simp only [Sys.step] at hstep
    obtain ⟨⟨-, hperm⟩, rfl⟩ := Run.of_guard hstep
    refine ⟨h.rehash hperm, fun t task task' accepted _ _ _ _ p _ a ha => ⟨a, ?_, rfl⟩⟩
    exact (h.books.keyed.find_perm hperm rfl p.1 p.2).trans ha

/-- Nothing has been allocated. -/
theorem Sys.Sound.init (threads : ℕ) : (Sys.init threads).Sound backend := by
  have hready : ∀ {t : ℕ} {task : Task}, (Sys.init threads).threads[t]? = some task → task = .ready := by
    intro t task ht
    exact (List.mem_replicate.mp (List.mem_of_getElem? ht)).2
  have hpinned : ∀ p, (Sys.init threads).pinned p = 0 := by
    intro p
    refine List.sum_eq_zero fun n hn => ?_
    obtain ⟨task, htask, rfl⟩ := List.mem_map.mp hn
    obtain rfl := (List.mem_replicate.mp htask).2
    rfl
  refine {
    books := ⟨fun _ => List.nodup_nil, nofun, fun kind base hpos => ?_, nofun, nofun, nofun,
      List.nodup_nil⟩
    within := fun t task accepted ht haccepted => ?_
    held := fun t task accepted ht haccepted => ?_
    freeing := fun t task p ht hp => ?_
    alone := fun t t' task task' p ht _ hp _ => ?_
    quiet := fun t kind ptr _ => hpinned _ }
  · rw [hpinned] at hpos
    cases hpos
  · obtain rfl := hready ht
    cases haccepted
  · obtain rfl := hready ht
    cases haccepted
  · obtain rfl := hready ht
    cases hp
  · obtain rfl := hready ht
    cases hp

/-- The ranges of a copy lie in allocations it uses, of the device it names, that are intact. A
range of ordinary host memory has none. -/
def Accepted.Live (accepted : Accepted) (s : State) : Prop :=
  (∀ address ∈ accepted.copy.deviceAddresses, ∃ base, (.device, base) ∈ accepted.uses ∧
    ∃ a, s.find .device base = some a ∧
      a.Covers accepted.copy.device address accepted.copy.size ∧ s.backing a.id = .intact) ∧
  ∀ base, accepted.host = some base → ∃ address a, accepted.copy.hostAddress = some address ∧
    s.find .host base = some a ∧ a.Covers accepted.copy.device address accepted.copy.size ∧
      s.backing a.id = .intact

/-- The copies are live. -/
theorem Sys.Sound.live (h : sys.Sound backend) (ht : sys.threads[t]? = some task)
    (htask : task.accepted = some accepted) : accepted.Live sys.shared := by
  obtain ⟨hdevice, hhost⟩ := h.within t task accepted ht htask
  refine ⟨fun address haddress => ?_, fun base hbase => ?_⟩
  · obtain ⟨base, hbase, a, ha, hcovers⟩ := hdevice address haddress
    exact ⟨base, List.mem_append_left _ (List.mem_map_of_mem hbase), a, ha, hcovers,
      (h.books.memory .device base a ha).2.2⟩
  · obtain ⟨address, a, haddress, ha, hcovers⟩ := hhost base hbase
    exact ⟨address, a, haddress, ha, hcovers, (h.books.memory .host base a ha).2.2⟩

/-- If every release of memory succeeds or fails as a whole, the ranges of every copy lie in
intact allocations of its device, which stay until the copy has ended, and no memory is
released twice. -/
theorem copied_allocations_live {backend : Backend} {threads : ℕ} {labels : List Label} {sys : Sys}
    (hrun : Run.Steps (Sys.step backend) (Sys.ReleasesWhole backend) (Sys.init threads) labels sys) :
    (∀ (t : ℕ) (task : Task) (accepted : Accepted), sys.threads[t]? = some task →
      task.accepted = some accepted → accepted.Live sys.shared) ∧
    (∀ label sys', sys.ReleasesWhole backend label → sys.step backend label = some sys' →
      sys.KeepsUsed sys') ∧
    sys.shared.releases.Nodup := by
  have hsound : sys.Sound backend :=
    hrun.invariant (fun _ _ _ h hwhole hstep => (h.step hwhole hstep).1) (.init threads)
  exact ⟨fun t task accepted ht htask => hsound.live ht htask,
    fun label sys' hwhole hstep => (hsound.step hwhole hstep).2, hsound.books.once⟩

/-- A copy to 16 bytes of the device behind the first 16 of an allocation. -/
def smallCopy : Copy := ⟨0, 4112, 64, 16, .hostToDevice⟩

/-- Memory is allocated, and one thread copies to it while another one frees it. -/
def freedWhileCopied : List Label :=
  [.call 0 (.malloc .device 0 64) { allocated := some 4096 },
    .call 0 (.memcpy smallCopy) {},
    .call 1 (.free .device 0 4096) {},
    .resume 1 {}]

/-- The thread that frees the memory waits, and the copy is live. -/
theorem copied_allocations_live_freed : ∃ sys : Sys,
    Run.Steps (Sys.step .directKfd) (Sys.ReleasesWhole .directKfd) (Sys.init 2) freedWhileCopied
      sys ∧
    sys.threads = [.copySync ⟨smallCopy, [4096], none, [(.device, 4096)]⟩, .freeWait .device 4096] ∧
    Accepted.Live ⟨smallCopy, [4096], none, [(.device, 4096)]⟩ sys.shared := by
  obtain ⟨sys, hexec, hthreads⟩ : ∃ sys : Sys,
      Run.exec (Sys.step .directKfd) freedWhileCopied (Sys.init 2) = some sys ∧ sys.threads =
        [.copySync ⟨smallCopy, [4096], none, [(.device, 4096)]⟩, .freeWait .device 4096] :=
    Run.exists_of_exec (by decide +kernel)
  have hrun : Run.Steps (Sys.step .directKfd) (Sys.ReleasesWhole .directKfd) (Sys.init 2)
      freedWhileCopied sys := by
    refine Run.Steps.of_exec_of_forall hexec fun label hlabel sys => ?_
    simp only [freedWhileCopied, List.mem_cons, List.not_mem_nil, or_false] at hlabel
    rcases hlabel with rfl | rfl | rfl | rfl <;> simp [Sys.ReleasesWhole, Label.inputs]
  exact ⟨sys, hrun, hthreads,
    (copied_allocations_live hrun).1 0 _ _ (by rw [hthreads]; rfl) rfl⟩

/-- The release of the memory fails after the mapping of the device is gone. Its address on the
device is zero from then on, and only a copy to its first byte is refused: the next copy to bytes
behind it accepts the range. -/
theorem copied_allocation_partly_released : ∃ sys : Sys,
    Run.exec (Sys.step .directKfd)
      [.call 0 (.malloc .device 0 64) { allocated := some 4096 },
        .call 0 (.free .device 0 4096) {}, .resume 0 {}, .resume 0 { release := .partly },
        .call 0 (.memcpy smallCopy) {}] (Sys.init 1) = some sys ∧
    sys.threads = [.copySync ⟨smallCopy, [4096], none, [(.device, 4096)]⟩] ∧
    ((sys.shared.find .device 4096).map fun a => sys.shared.backing a.id) = some .partly :=
  Run.exists_of_exec (by decide +kernel)

end LightRocm.Memory
