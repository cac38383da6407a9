import LightRocm.Lib.Run
import LightRocm.Runtime.KernargSegment

/-!
# The argument slices of a queue over its life

A queue cuts slices from its arenas, takes a slice back when no dispatch can be made for
it, and hands the slices of retired dispatches to later launches. Every dispatch keeps a
slice of its own through all of this, so the arguments of a pending dispatch stay as its
launch has left them until the dispatch retires.
-/

namespace LightRocm.KernargSegment

open ByteMemory Launch Loader Run

/-! ## Slices -/

/-- The two ranges have no address in common. -/
def RangesApart (start length start' length' : ℕ) : Prop :=
  start + length ≤ start' ∨ start' + length' ≤ start

instance (start length start' length' : ℕ) : Decidable (RangesApart start length start' length') :=
  inferInstanceAs (Decidable (_ ∨ _))

/-- The slice is empty, or it consists of whole pages in the used part of its arena. -/
def KernargSlice.Placed (arenas : List KernargArena) (slice : KernargSlice) : Prop :=
  slice.arena = none ∧ slice.size = 0 ∨
    (4096 ∣ slice.offset ∧ 4096 ∣ slice.size ∧ 0 < slice.size) ∧
      ∃ i arena, slice.arena = some i ∧ arenas[i]? = some arena ∧
        slice.offset + slice.size ≤ arena.used

/-- The two slices share no byte. -/
def KernargSlice.Apart (slice other : KernargSlice) : Prop :=
  ∀ i, slice.arena = some i → other.arena = some i →
    RangesApart slice.offset slice.size other.offset other.size

/-- The slices are places in the arenas and share no byte, and the arenas do not overlap. -/
structure Sliced (arenas : List KernargArena) (slices : List KernargSlice) : Prop where
  placed : ∀ slice ∈ slices, slice.Placed arenas
  apart : slices.Pairwise KernargSlice.Apart
  used : ∀ (i : ℕ) (arena : KernargArena), arenas[i]? = some arena →
    4096 ∣ arena.used ∧ arena.used ≤ arena.size
  separate : ∀ (i j : ℕ) (arena other : KernargArena), arenas[i]? = some arena →
    arenas[j]? = some other → i ≠ j →
    RangesApart arena.hostAddress arena.size other.hostAddress other.size

/-- Arenas stay where they are. -/
def Grown (arenas arenas' : List KernargArena) : Prop :=
  ∀ (i : ℕ) (arena : KernargArena), arenas[i]? = some arena →
    ∃ arena' : KernargArena, arenas'[i]? = some arena' ∧ arena'.hostAddress = arena.hostAddress

variable {arenas arenas' : List KernargArena} {slices slices' : List KernargSlice}
  {slice other : KernargSlice} {queue after : KernargQueue} {around : Surroundings} {size i : ℕ}
  {arena : KernargArena}

theorem KernargSlice.Apart.symm (h : slice.Apart other) : other.Apart slice :=
  fun i hother hslice => (h i hslice hother).symm

theorem Sliced.perm (h : Sliced arenas slices) (hperm : slices.Perm slices') :
    Sliced arenas slices' :=
  { h with
    placed := fun slice hslice => h.placed slice (hperm.mem_iff.mpr hslice)
    apart := (hperm.pairwise_iff fun happart => happart.symm).mp h.apart }

theorem Sliced.tail (h : Sliced arenas (slice :: slices)) : Sliced arenas slices :=
  { h with
    placed := fun other hother => h.placed other (List.mem_cons_of_mem _ hother)
    apart := h.apart.tail }

theorem Sliced.cons (h : Sliced arenas slices) (hplaced : slice.Placed arenas)
    (hapart : ∀ other ∈ slices, slice.Apart other) : Sliced arenas (slice :: slices) :=
  { h with
    placed := List.forall_mem_cons.mpr ⟨hplaced, h.placed⟩
    apart := List.pairwise_cons.mpr ⟨hapart, h.apart⟩ }

/-- The slices in an arena end where its used part ends, or before. -/
theorem KernargSlice.Placed.end_le (h : slice.Placed arenas) (harena : arenas[i]? = some arena)
    (hs : slice.arena = some i) : 0 < slice.size ∧ slice.offset + slice.size ≤ arena.used := by
  obtain ⟨hnone, -⟩ | ⟨⟨-, -, hpos⟩, j, found, hj, hfound, hend⟩ := h
  · cases hnone.symm.trans hs
  · obtain rfl : j = i := Option.some.inj (hj.symm.trans hs)
    obtain rfl : found = arena := Option.some.inj (hfound.symm.trans harena)
    exact ⟨hpos, hend⟩

theorem Grown.refl (arenas : List KernargArena) : Grown arenas arenas :=
  fun _ arena harena => ⟨arena, harena, rfl⟩

theorem Grown.trans {arenas'' : List KernargArena} (h : Grown arenas arenas')
    (h' : Grown arenas' arenas'') : Grown arenas arenas'' := by
  intro i arena harena
  obtain ⟨arena', harena', hhost⟩ := h i arena harena
  obtain ⟨arena'', harena'', hhost'⟩ := h' i arena' harena'
  exact ⟨arena'', harena'', hhost'.trans hhost⟩

/-- A slice that is placed keeps its address. -/
theorem Grown.hostAddress (h : Grown arenas arenas') (hslice : slice.Placed arenas) :
    slice.hostAddress arenas' = slice.hostAddress arenas := by
  unfold KernargSlice.hostAddress
  obtain ⟨hnone, -⟩ | ⟨-, i, arena, hs, harena, -⟩ := hslice
  · rw [hnone]
    rfl
  · obtain ⟨arena', harena', hhost⟩ := h i arena harena
    simp only [hs, Option.bind_some, harena, harena', hhost]

/-- A slice has no address in common with the others. -/
theorem Sliced.rangesApart (h : Sliced arenas (slice :: slices)) (hmem : other ∈ slices) :
    slice.size = 0 ∨ other.size = 0 ∨
      RangesApart (slice.hostAddress arenas) slice.size (other.hostAddress arenas) other.size := by
  obtain ⟨-, hzero⟩ | ⟨-, i, arena, hs, harena, hend⟩ :=
    h.placed slice List.mem_cons_self
  · exact .inl hzero
  obtain ⟨-, hzero⟩ | ⟨-, j, arena', ho, harena', hend'⟩ := h.tail.placed other hmem
  · exact .inr (.inl hzero)
  right; right
  simp only [KernargSlice.hostAddress, hs, ho, Option.bind_some, harena, harena']
  by_cases hij : i = j
  · subst hij
    obtain rfl : arena = arena' := Option.some.inj (harena.symm.trans harena')
    have := (List.pairwise_cons.mp h.apart).1 other hmem i hs ho
    unfold RangesApart at *
    omega
  · have hseparate := h.separate i j arena arena' harena harena' hij
    have hused := (h.used i arena harena).2
    have hused' := (h.used j arena' harena').2
    unfold RangesApart at *
    omega

/-! ## Cutting a slice -/

/-- A new arena lies in memory that no arena has. -/
def FreshArena (arenas : List KernargArena) (size : ℕ) (around : Surroundings) : Prop :=
  ∀ place ∈ around.arena, ∀ arena ∈ arenas,
    RangesApart arena.hostAddress arena.size place.1 (max kDirectKfdKernargArenaSize size)

/-- The used part of an arena ends somewhere else, behind the slices in the arena. -/
theorem Sliced.setUsed (h : Sliced arenas slices) {used : ℕ} (harena : arenas[i]? = some arena)
    (hpages : 4096 ∣ used) (hle : used ≤ arena.size)
    (hkeep : ∀ slice ∈ slices, slice.arena = some i → slice.offset + slice.size ≤ used) :
    Grown arenas (arenas.set i { arena with used := used }) ∧
      Sliced (arenas.set i { arena with used := used }) slices := by
  have hi := (List.getElem?_eq_some_iff.mp harena).1
  have hself : (arenas.set i { arena with used := used })[i]? = some { arena with used := used } :=
    List.getElem?_set_self hi
  have hold : ∀ {j : ℕ} {found : KernargArena},
      (arenas.set i { arena with used := used })[j]? = some found →
      ∃ old, arenas[j]? = some old ∧ found.hostAddress = old.hostAddress ∧ found.size = old.size ∧
        (found = old ∨ found.used = used ∧ old = arena) := by
    intro j found hfound
    by_cases hij : i = j
    · subst hij
      obtain rfl := Option.some.inj (hself.symm.trans hfound)
      exact ⟨arena, harena, rfl, rfl, .inr ⟨rfl, rfl⟩⟩
    · rw [List.getElem?_set_ne hij] at hfound
      exact ⟨found, hfound, rfl, rfl, .inl rfl⟩
  refine ⟨fun j other hother => ?_, { h with placed := ?_, used := ?_, separate := ?_ }⟩
  · by_cases hij : i = j
    · subst hij
      obtain rfl : arena = other := Option.some.inj (harena.symm.trans hother)
      exact ⟨_, hself, rfl⟩
    · exact ⟨other, by rwa [List.getElem?_set_ne hij], rfl⟩
  · intro slice hslice
    obtain hempty | ⟨hpages, j, found, hs, hfound, hend⟩ := h.placed slice hslice
    · exact .inl hempty
    · by_cases hij : i = j
      · subst hij
        exact .inr ⟨hpages, i, _, hs, hself, hkeep slice hslice hs⟩
      · exact .inr ⟨hpages, j, found, hs, by rwa [List.getElem?_set_ne hij], hend⟩
  · intro j found hfound
    obtain ⟨old, hold, -, hsize, rfl | ⟨rfl, rfl⟩⟩ := hold hfound
    · exact h.used j found hold
    · exact ⟨hpages, hle.trans_eq hsize.symm⟩
  · intro j k found found' hfound hfound' hjk
    obtain ⟨old, hj, hhost, hsize, -⟩ := hold hfound
    obtain ⟨old', hk, hhost', hsize', -⟩ := hold hfound'
    rw [hhost, hsize, hhost', hsize']
    exact h.separate j k old old' hj hk hjk

/-- A slice is cut from the end of the used part of an arena. -/
theorem Sliced.cut (h : Sliced arenas slices) (harena : arenas[i]? = some arena)
    (hpages : 4096 ∣ size) (hpos : 0 < size) (hroom : arena.used + size ≤ arena.size) :
    Grown arenas (arenas.set i { arena with used := arena.used + size }) ∧
      Sliced (arenas.set i { arena with used := arena.used + size })
        (⟨some i, arena.used, size⟩ :: slices) := by
  have hused := (h.used i arena harena).1
  have hend : ∀ slice ∈ slices, slice.arena = some i → slice.offset + slice.size ≤ arena.used :=
    fun slice hslice hs => ((h.placed slice hslice).end_le harena hs).2
  obtain ⟨hgrown, hset⟩ := h.setUsed harena (Nat.dvd_add hused hpages) hroom
    fun slice hslice hs => (hend slice hslice hs).trans (Nat.le_add_right _ _)
  refine ⟨hgrown, hset.cons (.inr ⟨⟨hused, hpages, hpos⟩, i, _, rfl,
    List.getElem?_set_self (List.getElem?_eq_some_iff.mp harena).1, le_rfl⟩) ?_⟩
  rintro other hother _ ⟨⟩ ho
  exact .inr (hend other hother ho)

/-- A slice goes back to its arena if it is the last one there, and is lost otherwise. -/
theorem rollbackKernarg_sliced (queue : KernargQueue)
    (h : Sliced queue.arenas (slice :: slices)) :
    ∃ arenas, rollbackKernarg slice queue = { queue with arenas := arenas } ∧
      Grown queue.arenas arenas ∧ Sliced arenas slices := by
  unfold rollbackKernarg
  split
  · exact ⟨queue.arenas, rfl, .refl _, h.tail⟩
  rename_i i hs
  split
  · exact ⟨queue.arenas, rfl, .refl _, h.tail⟩
  rename_i arena harena
  split
  · rename_i hlast
    obtain ⟨hnone, -⟩ | ⟨⟨hpages, -⟩, -⟩ := h.placed slice List.mem_cons_self
    · cases hnone.symm.trans hs
    refine ⟨_, rfl, h.tail.setUsed harena hpages ?_ fun other hother ho => ?_⟩
    · have := (h.used i arena harena).2
      omega
    · obtain ⟨hpos, hend⟩ := (h.tail.placed other hother).end_le harena ho
      have hapart := (List.pairwise_cons.mp h.apart).1 other hother i hs ho
      unfold RangesApart at hapart
      omega
  · exact ⟨queue.arenas, rfl, .refl _, h.tail⟩

/-- An arena is added of which nothing is used. -/
theorem Sliced.addArena (h : Sliced arenas slices) {new : KernargArena} (hused : new.used = 0)
    (hfresh : ∀ arena ∈ arenas,
      RangesApart arena.hostAddress arena.size new.hostAddress new.size) :
    Grown arenas (arenas ++ [new]) ∧ Sliced (arenas ++ [new]) slices := by
  have hcases : ∀ {i : ℕ} {found : KernargArena}, (arenas ++ [new])[i]? = some found →
      arenas[i]? = some found ∨ i = arenas.length ∧ new = found := by
    intro i found hfound
    by_cases hi : i < arenas.length
    · rw [List.getElem?_append_left hi] at hfound
      exact .inl hfound
    · rw [List.getElem?_append_right (not_lt.mp hi), List.getElem?_singleton] at hfound
      obtain ⟨hi', hnew⟩ := Option.ite_none_right_eq_some.mp hfound
      exact .inr ⟨by omega, Option.some.inj hnew⟩
  have hkept : ∀ {i : ℕ} {arena : KernargArena}, arenas[i]? = some arena →
      (arenas ++ [new])[i]? = some arena :=
    fun harena => by rwa [List.getElem?_append_left (List.getElem?_eq_some_iff.mp harena).1]
  refine ⟨fun i arena harena => ⟨arena, hkept harena, rfl⟩, { h with
    placed := fun slice hslice => ?_
    used := fun i found hfound => ?_
    separate := fun i j found found' hfound hfound' hij => ?_ }⟩
  · obtain hempty | ⟨hpages, i, arena, hs, harena, hend⟩ := h.placed slice hslice
    · exact .inl hempty
    · exact .inr ⟨hpages, i, arena, hs, hkept harena, hend⟩
  · obtain hold | ⟨-, rfl⟩ := hcases hfound
    · exact h.used i found hold
    · rw [hused]
      exact ⟨dvd_zero _, Nat.zero_le _⟩
  · obtain hi | ⟨hi, rfl⟩ := hcases hfound <;> obtain hj | ⟨hj, rfl⟩ := hcases hfound'
    · exact h.separate i j found found' hi hj hij
    · exact hfresh found (List.mem_of_getElem? hi)
    · exact (hfresh found' (List.mem_of_getElem? hj)).symm
    · exact absurd (hi.trans hj.symm) hij

/-- A slice that is cut belongs to nobody else. -/
theorem allocateKernarg_sliced (h : Sliced queue.arenas slices) (hpages : 4096 ∣ size)
    (hfresh : FreshArena queue.arenas size around)
    (hcut : allocateKernarg size around queue = some (slice, after)) :
    slice.size = size ∧ ∃ arenas, after = { queue with arenas := arenas } ∧
      Grown queue.arenas arenas ∧ Sliced arenas (slice :: slices) := by
  unfold allocateKernarg at hcut
  by_cases hzero : size = 0
  · rw [if_pos hzero] at hcut
    cases hcut
    exact ⟨hzero.symm, _, rfl, .refl _, h.cons (.inl ⟨rfl, rfl⟩) fun _ _ _ hnone => nomatch hnone⟩
  rw [if_neg hzero] at hcut
  have hpos := Nat.pos_of_ne_zero hzero
  split at hcut
  · rename_i i hfind
    split at hcut
    · cases hcut
    rename_i arena harena
    cases hcut
    have hroom : arena.used + size ≤ arena.size := by
      have hfound := (List.findIdx?_eq_some_iff_getElem.mp hfind).2.1
      obtain ⟨hi, rfl⟩ := List.getElem?_eq_some_iff.mp harena
      have := of_decide_eq_true hfound
      omega
    exact ⟨rfl, _, rfl, h.cut harena hpages hpos hroom⟩
  · split at hcut
    · cases hcut
    rename_i host gpu hplace
    cases hcut
    let new : KernargArena := ⟨host, gpu, max kDirectKfdKernargArenaSize size, 0⟩
    obtain ⟨hgrown, hadded⟩ := h.addArena (rfl : new.used = 0) (hfresh (host, gpu) hplace)
    have hlast : (queue.arenas ++ [new])[queue.arenas.length]? = some new :=
      List.getElem?_concat_length
    obtain ⟨hgrown', hcut⟩ := hadded.cut hlast hpages hpos
      (by rw [Nat.zero_add]; exact le_max_right _ _)
    rw [Nat.zero_add, List.set_append_right _ _ le_rfl, Nat.sub_self] at hgrown' hcut
    exact ⟨rfl, _, rfl, hgrown.trans hgrown', hcut⟩

/-! ## A launch -/

/-- An object leaves the available ones, and the others stay. -/
theorem takeAvailable_perm (h : takeAvailable i queue = some (slice, after)) :
    after = { queue with available := after.available } ∧ queue.available[i]? = some slice ∧
      (slice :: after.available).Perm queue.available := by
  unfold takeAvailable at h
  split at h
  · rename_i found last hfound hlast
    cases h
    refine ⟨rfl, hfound, ?_⟩
    obtain ⟨hi, rfl⟩ := List.getElem?_eq_some_iff.mp hfound
    have hlast' : (queue.available.set i last).getLast? = some last := by
      rw [List.getLast?_eq_getElem?] at hlast ⊢
      rw [List.length_set, List.getElem?_set]
      split_ifs
      · rfl
      · exact hlast
    obtain ⟨rest, hrest⟩ := List.getLast?_eq_some_iff.mp hlast'
    rw [hrest, List.dropLast_concat]
    have hset := List.set_perm_cons_eraseIdx hi last
    rw [hrest] at hset
    have hperm := (List.perm_append_singleton last rest).symm.trans hset
    exact (((List.perm_cons last).mp hperm).cons _).trans (List.getElem_cons_eraseIdx_perm hi)
  · cases h

/-- An object that is taken has enough space. -/
theorem le_of_findReusable (h : findReusable size queue.available = some i)
    (hslice : queue.available[i]? = some slice) : size ≤ slice.size := by
  obtain ⟨j, hj, rfl⟩ := Option.map_eq_some_iff.mp h
  obtain ⟨hlength, hfits, -⟩ := List.findIdx?_eq_some_iff_getElem.mp hj
  rw [List.getElem_reverse] at hfits
  obtain ⟨-, rfl⟩ := List.getElem?_eq_some_iff.mp hslice
  obtain rfl | ⟨-, hle⟩ := of_decide_eq_true hfits
  · exact Nat.zero_le _
  · exact hle

/-- The slices of all dispatch objects of a queue. -/
def KernargQueue.Sliced (queue : KernargQueue) : Prop :=
  KernargSegment.Sliced queue.arenas (queue.pending ++ queue.available)

/-- The dispatches that are still pending keep their slices and what is in them, `new` are
pending now, and the slices share no byte. -/
structure Carried (queue after : KernargQueue) (new : List KernargSlice) : Prop where
  sliced : after.Sliced
  pending : ∃ k, after.pending = queue.pending.drop k ++ new ∧
    ∀ slice ∈ queue.pending.drop k, Agree after.memory queue.memory
      (slice.hostAddress after.arenas) (slice.hostAddress queue.arenas) slice.size

theorem reap_sliced (h : queue.Sliced) (count : ℕ) : (reap count queue).Sliced := by
  refine h.perm ?_
  simp only [reap]
  nth_rewrite 1 [← List.take_append_drop count queue.pending]
  rw [List.append_assoc]
  exact List.perm_append_comm.trans (by rw [List.append_assoc])

/-- An available object that is taken has a slice of its own, which is large enough. -/
theorem takeAvailable_sliced (h : queue.Sliced)
    (hfind : findReusable size queue.available = some i)
    (htake : takeAvailable i queue = some (slice, after)) :
    Grown queue.arenas after.arenas ∧ after.memory = queue.memory ∧
      after.pending = queue.pending ∧
      KernargSegment.Sliced after.arenas (slice :: (after.pending ++ after.available)) ∧
      size ≤ slice.size := by
  obtain ⟨hafter, hslice, hperm⟩ := takeAvailable_perm htake
  rw [hafter]
  refine ⟨.refl _, rfl, rfl, h.perm ?_, le_of_findReusable hfind hslice⟩
  exact (hperm.append_left _).symm.trans List.perm_middle

/-- The object of a launch has a slice that nobody else has. -/
theorem acquireDispatch_sliced (h : queue.Sliced) (hpages : 4096 ∣ size)
    (hfresh : FreshArena queue.arenas size around) {result : Except Status KernargSlice}
    (hacquire : acquireDispatch size around queue = (result, after)) :
    Grown queue.arenas after.arenas ∧ after.memory = queue.memory ∧
      (∃ k, after.pending = queue.pending.drop k) ∧
      KernargSegment.Sliced after.arenas
        (result.toOption.toList ++ (after.pending ++ after.available)) ∧
      ∀ slice, result = .ok slice → size ≤ slice.size := by
  have hreaped := reap_sliced h around.reaped
  unfold acquireDispatch at hacquire
  dsimp only at hacquire
  split at hacquire
  · rename_i hfind
    split at hacquire
    · rename_i htake
      cases hacquire
      obtain ⟨hgrown, hmemory, hpending, hsliced, hsize⟩ := takeAvailable_sliced h hfind htake
      exact ⟨hgrown, hmemory, ⟨0, hpending⟩, hsliced, by rintro _ ⟨⟩; exact hsize⟩
    · cases hacquire
      exact ⟨.refl _, rfl, ⟨0, rfl⟩, h, nofun⟩
  split at hacquire
  · cases hacquire
    exact ⟨.refl _, rfl, ⟨_, rfl⟩, hreaped, nofun⟩
  split at hacquire
  · rename_i hfind
    split at hacquire
    · rename_i htake
      cases hacquire
      obtain ⟨hgrown, hmemory, hpending, hsliced, hsize⟩ :=
        takeAvailable_sliced hreaped hfind htake
      exact ⟨hgrown, hmemory, ⟨_, hpending⟩, hsliced, by rintro _ ⟨⟩; exact hsize⟩
    · cases hacquire
      exact ⟨.refl _, rfl, ⟨_, rfl⟩, hreaped, nofun⟩
  split at hacquire
  · cases hacquire
    exact ⟨.refl _, rfl, ⟨_, rfl⟩, hreaped, nofun⟩
  · rename_i slice cut hcut
    obtain ⟨hsize, arenas, rfl, hgrown, hsliced⟩ :=
      allocateKernarg_sliced hreaped hpages hfresh hcut
    split at hacquire
    · cases hacquire
      refine ⟨hgrown, rfl, ⟨_, rfl⟩, hsliced, ?_⟩
      rintro _ ⟨⟩
      exact hsize.ge
    · cases hacquire
      obtain ⟨arenas', hrollback, hgrown', hsliced'⟩ := rollbackKernarg_sliced
        { reap around.reaped queue with arenas := arenas } hsliced
      rw [hrollback]
      exact ⟨hgrown.trans hgrown', rfl, ⟨_, rfl⟩, hsliced', nofun⟩

/-- The ways in which `submitKernel` ends: it is refused, there is no object for it, the object
goes back to the available ones, or the launch is accepted. -/
inductive Submitted (kernel : KernelInfo) (config : LaunchConfig) (args argsSize : ℕ)
    (around : Surroundings) (queue : KernargQueue) : Status → KernargQueue → Prop
  | refused {status} (hfailed : status ≠ .success) :
      Submitted kernel config args argsSize around queue status queue
  | noObject {status found}
      (hacquire : acquireDispatch (allocationSize kernel.kernargSize) around queue =
        (.error status, found)) :
      Submitted kernel config args argsSize around queue status found
  | failed {status slice found requirements filled last}
      (hacquire : acquireDispatch (allocationSize kernel.kernargSize) around queue =
        (.ok slice, found))
      (hstorage : requirements.storageSize = kernel.kernargSize)
      (hfill : fillKernarg requirements kernel config args argsSize slice found = (filled, last))
      (hfailed : status ≠ .success) :
      Submitted kernel config args argsSize around queue status
        { last with available := last.available ++ [slice] }
  | accepted {slice found requirements last}
      (hacquire : acquireDispatch (allocationSize kernel.kernargSize) around queue =
        (.ok slice, found))
      (hstorage : requirements.storageSize = kernel.kernargSize)
      (hfill : fillKernarg requirements kernel config args argsSize slice found = (true, last)) :
      Submitted kernel config args argsSize around queue .success
        { last with pending := last.pending ++ [slice] }

variable {kernel : KernelInfo} {config : LaunchConfig} {args argsSize : ℕ}
  {requirements : KernargBufferRequirements} {filled : Bool} {status : Status}

/-- Nothing outside the segment is written, whether or not it can be filled. -/
theorem fillKernarg_outside (hrequirements : requirements.storageSize = kernel.kernargSize)
    (h : fillKernarg requirements kernel config args argsSize slice queue = (filled, after)) :
    ∃ memory, after = { queue with memory := memory } ∧ ∀ address,
      ¬ InRange (slice.hostAddress queue.arenas) kernel.kernargSize address →
        memory address = queue.memory address := by
  unfold fillKernarg at h
  split at h
  · cases h
    exact ⟨_, rfl, fun _ _ => rfl⟩
  · rename_i hnonempty
    dsimp only at h
    split at h
    · cases h
      exact ⟨_, rfl, fun _ _ => rfl⟩
    · rename_i address memory hmaterialize
      obtain ⟨hsize, hdestination, rfl⟩ := materialize_spec hnonempty hmaterialize
      obtain ⟨-, rfl⟩ := Prod.mk.inj h
      rw [hrequirements] at hsize ⊢
      exact ⟨_, rfl, fun _ => (Filled.segment hsize hdestination).outside⟩

theorem submitted_of_eq
    (h : submitKernel kernel config args argsSize around queue = (status, after)) :
    Submitted kernel config args argsSize around queue status after := by
  unfold submitKernel at h
  split at h
  · cases h
    exact .refused nofun
  split at h
  · split at h <;> cases h <;> exact .refused nofun
  split at h
  · rename_i hscratch
    cases h
    exact .refused hscratch
  split at h
  · rename_i hcapacity
    cases h
    exact .refused hcapacity
  split at h
  · cases h
    exact .refused nofun
  split at h
  · cases h
    exact .refused nofun
  · cases h
    exact .refused nofun
  rename_i requirements hrequirements
  have hstorage := requirements_eq hrequirements
  rw [hstorage] at h
  dsimp only at h
  split at h
  · cases h
    exact .refused nofun
  split at h
  · rename_i hacquire
    cases h
    exact .noObject hacquire
  rename_i hacquire
  split at h
  · rename_i hfill
    cases h
    exact .failed hacquire hstorage hfill nofun
  rename_i hfill
  split at h
  · cases h
    exact .failed hacquire hstorage hfill nofun
  split at h
  · rename_i hsubmitted
    cases h
    exact .failed hacquire hstorage hfill (aqlSubmitStatus_ne hsubmitted)
  · cases h
    exact .accepted hacquire hstorage hfill

/-- Whatever a launch writes lies in its slice, apart from those of the pending dispatches. -/
theorem fillKernarg_carried {found last : KernargQueue} (h : queue.Sliced)
    (hfresh : FreshArena queue.arenas (allocationSize kernel.kernargSize) around)
    (hacquire : acquireDispatch (allocationSize kernel.kernargSize) around queue =
      (.ok slice, found)) (hstorage : requirements.storageSize = kernel.kernargSize)
    (hfill : fillKernarg requirements kernel config args argsSize slice found = (filled, last)) :
    kernel.kernargSize ≤ slice.size ∧
      Carried queue { last with available := last.available ++ [slice] } [] ∧
      Carried queue { last with pending := last.pending ++ [slice] } [slice] := by
  obtain ⟨hgrown, hmemory, ⟨k, hpending⟩, hsliced, hfits⟩ :=
    acquireDispatch_sliced h (Dvd.intro_left _ rfl) hfresh hacquire
  have hsize : kernel.kernargSize ≤ slice.size := by
    refine le_trans ?_ (hfits slice rfl)
    omega
  obtain ⟨memory, rfl, houtside⟩ := fillKernarg_outside hstorage hfill
  have hagree : ∀ other ∈ queue.pending.drop k, Agree memory queue.memory
      (other.hostAddress found.arenas) (other.hostAddress queue.arenas) other.size := by
    intro other hother j hj
    have hmem : other ∈ found.pending ++ found.available :=
      List.mem_append_left _ (hpending ▸ hother)
    have hranges := hsliced.rangesApart hmem
    rw [houtside, hmemory, hgrown.hostAddress
      (h.placed other (List.mem_append_left _ (List.mem_of_mem_drop hother)))]
    unfold InRange
    unfold RangesApart at hranges
    omega
  refine ⟨hsize, ⟨hsliced.perm ?_, k, by rw [List.append_nil]; exact hpending, hagree⟩,
    hsliced.perm ?_, k, by rw [← hpending], hagree⟩
  · change (slice :: (found.pending ++ found.available)).Perm
      (found.pending ++ (found.available ++ [slice]))
    rw [← List.append_assoc]
    exact (List.perm_append_singleton slice _).symm
  · change (slice :: (found.pending ++ found.available)).Perm
      (found.pending ++ [slice] ++ found.available)
    rw [List.append_assoc]
    exact List.perm_middle.symm

/-- What a launch does to the slices of its queue, accepted or not. -/
theorem submitKernel_carried (h : queue.Sliced)
    (hfresh : FreshArena queue.arenas (allocationSize kernel.kernargSize) around)
    (hsubmit : submitKernel kernel config args argsSize around queue = (status, after)) :
    (status = .success → ∃ slice : KernargSlice, kernel.kernargSize ≤ slice.size ∧
      Carried queue after [slice]) ∧ (status ≠ .success → Carried queue after []) := by
  cases submitted_of_eq hsubmit with
  | refused hfailed =>
    exact ⟨fun hsuccess => absurd hsuccess hfailed,
      fun _ => ⟨h, 0, (List.append_nil _).symm, fun _ _ _ _ => rfl⟩⟩
  | noObject hacquire =>
    obtain ⟨hgrown, hmemory, ⟨k, hpending⟩, hsliced, -⟩ :=
      acquireDispatch_sliced h (Dvd.intro_left _ rfl) hfresh hacquire
    refine ⟨fun hsuccess => absurd hsuccess (acquireDispatch_error hacquire), fun _ =>
      ⟨hsliced, k, by rw [hpending, List.append_nil], fun slice hslice i _ => ?_⟩⟩
    have hplaced := h.placed slice (List.mem_append_left _ (List.mem_of_mem_drop hslice))
    rw [hmemory, hgrown.hostAddress hplaced]
  | failed hacquire hstorage hfill hfailed =>
    exact ⟨fun hsuccess => absurd hsuccess hfailed,
      fun _ => (fillKernarg_carried h hfresh hacquire hstorage hfill).2.1⟩
  | accepted hacquire hstorage hfill =>
    obtain ⟨hsize, -, hcarried⟩ := fillKernarg_carried h hfresh hacquire hstorage hfill
    exact ⟨fun _ => ⟨_, hsize, hcarried⟩, fun hne => absurd rfl hne⟩

/-! ## Runs -/

/-- A queue with what has been given to its kernels. -/
structure QueueLife where
  queue : KernargQueue
  /-- The argument bytes of all accepted launches. -/
  issued : List (List UInt8)

/-- What happens to a queue. -/
inductive Label where
  | launch (kernel : KernelInfo) (config : LaunchConfig) (args argsSize : ℕ)
      (around : Surroundings)
  | retire (count : ℕ)
  /-- The program writes to memory of its own. -/
  | callerWrites (start : ℕ) (bytes : List UInt8)

/-- One step. An accepted launch issues the bytes that are in the segment of its dispatch. -/
def step : Label → QueueLife → Option QueueLife
  | .launch kernel config args argsSize around, life =>
    let result := submitKernel kernel config args argsSize around life.queue
    some {
      queue := result.2
      issued := if result.1 = .success then
          life.issued ++ (result.2.pending.getLast?.map fun slice =>
            read result.2.memory (slice.hostAddress result.2.arenas) kernel.kernargSize).toList
        else life.issued }
  | .retire count, life => some { life with queue := reap count life.queue }
  | .callerWrites start bytes, life =>
    some { life with
      queue := { life.queue with memory := write life.queue.memory start bytes } }

/-- New arenas lie in memory that no arena has, and the program does not write to arenas. -/
def KeepsOut (life : QueueLife) : Label → Prop
  | .launch kernel _ _ _ around =>
    FreshArena life.queue.arenas (allocationSize kernel.kernargSize) around
  | .retire _ => True
  | .callerWrites start bytes => ∀ arena ∈ life.queue.arenas,
    RangesApart start bytes.length arena.hostAddress arena.size

instance (life : QueueLife) : (label : Label) → Decidable (KeepsOut life label)
  | .launch .. => inferInstanceAs (Decidable (∀ place ∈ (_ : Option (ℕ × ℕ)), ∀ arena ∈ _, _))
  | .retire _ => inferInstanceAs (Decidable True)
  | .callerWrites .. => inferInstanceAs (Decidable (∀ arena ∈ _, _))

/-- The segment of the dispatch holds the bytes. -/
def Holds (queue : KernargQueue) (slice : KernargSlice) (bytes : List UInt8) : Prop :=
  bytes.length ≤ slice.size ∧
    read queue.memory (slice.hostAddress queue.arenas) bytes.length = bytes

/-- The pending dispatches belong to the last launches, and each holds what it was given. -/
def Intact (life : QueueLife) : Prop :=
  ∃ retired current, life.issued = retired ++ current ∧
    List.Forall₂ (Holds life.queue) life.queue.pending current

variable {life life' : QueueLife}

theorem Holds.carried {bytes : List UInt8} (h : Holds queue slice bytes)
    (hagree : Agree after.memory queue.memory (slice.hostAddress after.arenas)
      (slice.hostAddress queue.arenas) slice.size) : Holds after slice bytes := by
  refine ⟨h.1, Eq.trans (Agree.read_eq fun i hi => hagree i ?_) h.2⟩
  exact hi.trans_le h.1

/-- Dispatches that have not retired hold what they held, and new ones what they are given. -/
theorem Intact.carried (h : Intact life) {new : List KernargSlice} {bytes : List (List UInt8)}
    (hcarried : Carried life.queue after new) (hnew : List.Forall₂ (Holds after) new bytes) :
    Intact ⟨after, life.issued ++ bytes⟩ := by
  obtain ⟨retired, current, hissued, hholds⟩ := h
  obtain ⟨k, hpending, hagree⟩ := hcarried.pending
  refine ⟨retired ++ current.take k, current.drop k ++ bytes, ?_, ?_⟩
  · simp only [hissued, List.append_assoc, ← List.append_assoc (current.take k),
      List.take_append_drop]
  · have hrest := (List.forall₂_and_left _ _).mpr ⟨hagree, List.forall₂_drop k hholds⟩
    rw [hpending]
    exact List.rel_append (hrest.imp fun _ _ ⟨hagree, hold⟩ => hold.carried hagree) hnew

/-- Nothing new is pending. -/
theorem Intact.carried_nil (h : Intact life) (hcarried : Carried life.queue after []) :
    after.Sliced ∧ Intact ⟨after, life.issued⟩ :=
  ⟨hcarried.sliced, List.append_nil life.issued ▸ h.carried hcarried .nil⟩

theorem step_launch (hsliced : life.queue.Sliced) (hintact : Intact life)
    (hfresh : FreshArena life.queue.arenas (allocationSize kernel.kernargSize) around)
    (hstep : step (.launch kernel config args argsSize around) life = some life') :
    life'.queue.Sliced ∧ Intact life' := by
  obtain ⟨status, after, hsubmit⟩ : ∃ status after,
      submitKernel kernel config args argsSize around life.queue = (status, after) := ⟨_, _, rfl⟩
  obtain ⟨hsuccess, hfailure⟩ := submitKernel_carried hsliced hfresh hsubmit
  simp only [step, hsubmit] at hstep
  by_cases hstatus : status = .success
  · obtain ⟨slice, hsize, hcarried⟩ := hsuccess hstatus
    obtain ⟨k, hpending, -⟩ := hcarried.pending
    rw [if_pos hstatus, hpending, List.getLast?_concat] at hstep
    cases hstep
    refine ⟨hcarried.sliced, hintact.carried hcarried (.cons ⟨?_, ?_⟩ .nil)⟩
    · rwa [length_read]
    · rw [length_read]
  · rw [if_neg hstatus] at hstep
    cases hstep
    exact hintact.carried_nil (hfailure hstatus)

/-- A slice lies in an arena. -/
theorem Sliced.inside_arena (h : Sliced arenas slices) (hslice : slice ∈ slices) :
    slice.size = 0 ∨ ∃ arena ∈ arenas, arena.hostAddress ≤ slice.hostAddress arenas ∧
      slice.hostAddress arenas + slice.size ≤ arena.hostAddress + arena.size := by
  obtain ⟨-, hzero⟩ | ⟨-, i, arena, hs, harena, hend⟩ := h.placed slice hslice
  · exact .inl hzero
  · have := (h.used i arena harena).2
    refine .inr ⟨arena, List.mem_of_getElem? harena, ?_⟩
    simp only [KernargSlice.hostAddress, hs, Option.bind_some, harena]
    omega

theorem step_intact (hinv : life.queue.Sliced ∧ Intact life) {label : Label}
    (hout : KeepsOut life label) (hstep : step label life = some life') :
    life'.queue.Sliced ∧ Intact life' := by
  obtain ⟨hsliced, hintact⟩ := hinv
  cases label with
  | launch => exact step_launch hsliced hintact hout hstep
  | retire count =>
    cases hstep
    exact hintact.carried_nil
      ⟨reap_sliced hsliced count, count, (List.append_nil _).symm, fun _ _ _ _ => rfl⟩
  | callerWrites start bytes =>
    cases hstep
    refine hintact.carried_nil
      ⟨hsliced, 0, (List.append_nil _).symm, fun slice hslice i hi => write_outside ?_⟩
    obtain hzero | ⟨arena, harena, hlow, hhigh⟩ :=
      hsliced.inside_arena (List.mem_append_left _ hslice)
    · omega
    · have hapart := hout arena harena
      unfold RangesApart at hapart
      unfold InRange
      dsimp only
      omega

/-- A queue to which nothing has happened. -/
def QueueLife.init (memory : Memory) : QueueLife := ⟨⟨[], [], [], memory⟩, []⟩

theorem init_intact (memory : Memory) :
    (QueueLife.init memory).queue.Sliced ∧ Intact (.init memory) :=
  ⟨⟨nofun, .nil, nofun, nofun⟩, [], [], rfl, .nil⟩

/-- Over every sequence of launches, failed launches, retirements and writes of the program,
the slices of the pending and the available dispatches are whole pages in the used part of
their arenas and share no byte. -/
theorem dispatch_slices_apart (memory : Memory) (labels : List Label) (life : QueueLife)
    (hrun : Steps step KeepsOut (.init memory) labels life) : life.queue.Sliced :=
  (hrun.invariant (fun _ _ _ hinv hout hstep => step_intact hinv hout hstep)
    (init_intact memory)).1

/-- A launch of the sample kernel. -/
def sampleLaunch (arena : Option (ℕ × ℕ)) : Label :=
  .launch sampleKernel ⟨⟨64, 1, 1⟩, ⟨32, 1, 1⟩, 0⟩ 64 8 { sampleSurroundings with arena := arena }

/-- Two launches with slices of one arena, and a third one that gets the slice of the first. -/
def reusingSlice : List Label :=
  [sampleLaunch (some (4096, 8192)), .callerWrites 64 [1], sampleLaunch none, .retire 1,
    sampleLaunch none]

theorem exists_reusingSlice : ∃ life : QueueLife,
    Steps step KeepsOut (.init fun _ => 7) reusingSlice life ∧ life.issued.length = 3 ∧
      life.queue.pending.map KernargSlice.offset = [4096, 0] := by
  obtain ⟨life, hexec, hlife⟩ : ∃ life,
      exec (checked (fun life label => decide (KeepsOut life label)) step) reusingSlice
        (.init fun _ => 7) = some life ∧ life.issued.length = 3 ∧
        life.queue.pending.map KernargSlice.offset = [4096, 0] :=
    exists_of_exec (P := fun life => _ ∧ _) (by decide +kernel)
  exact ⟨life, Steps.of_exec_checked (fun _ _ => of_decide_eq_true) hexec, hlife⟩

theorem dispatch_slices_apart_reused : ∃ life : QueueLife,
    life.queue.pending.map KernargSlice.offset = [4096, 0] ∧ life.queue.Sliced := by
  obtain ⟨life, hrun, -, hpending⟩ := exists_reusingSlice
  exact ⟨life, hpending, dispatch_slices_apart _ _ life hrun⟩

/-- Over every such sequence, the pending dispatches are those of the last accepted launches,
in order, and the segment of each holds the bytes that its launch has put there. -/
theorem pending_arguments_kept (memory : Memory) (labels : List Label) (life : QueueLife)
    (hrun : Steps step KeepsOut (.init memory) labels life) : Intact life :=
  (hrun.invariant (fun _ _ _ hinv hout hstep => step_intact hinv hout hstep)
    (init_intact memory)).2

theorem pending_arguments_kept_reused : ∃ life : QueueLife,
    life.issued.length = 3 ∧ life.queue.pending.length = 2 ∧ Intact life := by
  obtain ⟨life, hrun, hissued, hpending⟩ := exists_reusingSlice
  refine ⟨life, hissued, ?_, pending_arguments_kept _ _ life hrun⟩
  simpa using congrArg List.length hpending

end LightRocm.KernargSegment
