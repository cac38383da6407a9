import LightRocm.Memory.Lifetime

/-!
# Memory statistics

The counters of allocated and freed memory of a device, `lr_memory_stats_t`, kept
beside the registries by `record_allocation`, `record_free` and their twins for pinned
host memory. Whatever the threads do, the live bytes are the sizes of the entries.
The counters of copies are left out.
-/

namespace LightRocm.Memory

/-- The counters of one kind of memory of a device. -/
structure Counters where
  liveBytes : UInt64 := 0
  peakLiveBytes : UInt64 := 0
  totalAllocatedBytes : UInt64 := 0
  totalFreedBytes : UInt64 := 0
  allocationCount : UInt64 := 0
  freeCount : UInt64 := 0

/-- `record_allocation` and `record_host_allocation`. -/
def recordAllocation (size : UInt64) (stats : Counters) : Counters :=
  let liveBytes := stats.liveBytes + size
  { stats with
    liveBytes := liveBytes
    totalAllocatedBytes := stats.totalAllocatedBytes + size
    allocationCount := stats.allocationCount + 1
    peakLiveBytes := if stats.peakLiveBytes < liveBytes then liveBytes else stats.peakLiveBytes }

/-- `record_free` and `record_host_free`. -/
def recordFree (size : UInt64) (stats : Counters) : Counters :=
  { stats with
    liveBytes := if stats.liveBytes < size then 0 else stats.liveBytes - size
    totalFreedBytes := stats.totalFreedBytes + size
    freeCount := stats.freeCount + 1 }

/-- `lr_reset_memory_stats`, for one kind of memory. -/
def resetStats (stats : Counters) : Counters :=
  { liveBytes := stats.liveBytes, peakLiveBytes := stats.liveBytes }

/-- What a section records. -/
inductive Record where
  | allocated (kind : Kind) (device size : ℕ)
  | freed (kind : Kind) (device size : ℕ)
  deriving DecidableEq

/-- What a step records: an allocation when it enters the registry, a free when the memory has been
released. The call that frees an allocation names the device of the entry. -/
def Sys.record (backend : Backend) (sys : Sys) : Label → Option Record
  | .call _ (.malloc kind device size) inputs =>
    if (malloc backend kind device size inputs sys.shared).1 = .returned .success then
      some (.allocated kind device size)
    else none
  | .resume t inputs =>
    (sys.threads[t]?).bind fun task => task.frees.bind fun p =>
      if (task.resume backend inputs sys.shared).map Prod.fst = some (.returned .success) then
        (sys.shared.find p.1 p.2).map fun a => .freed p.1 a.deviceIndex a.size
      else none
  | .call _ _ _ | .rehash _ _ => none

/-- The counters of all devices. -/
abbrev Statistics : Type := ℕ → Kind → Counters

/-- Change the counters of a kind of memory of a device. -/
def Statistics.change (stats : Statistics) (device : ℕ) (kind : Kind) (f : Counters → Counters) :
    Statistics :=
  fun d k => if d = device ∧ k = kind then f (stats d k) else stats d k

/-- The counters after a record. -/
def Statistics.apply (stats : Statistics) : Option Record → Statistics
  | none => stats
  | some (.allocated kind device size) => stats.change device kind (recordAllocation (.ofNat size))
  | some (.freed kind device size) => stats.change device kind (recordFree (.ofNat size))

/-- The runtime with its counters. -/
structure Counted where
  sys : Sys
  stats : Statistics

/-- A step of the runtime, or `lr_reset_memory_stats`. -/
inductive CountedLabel where
  | step (label : Label)
  | reset (device : ℕ)

/-- One step. -/
def Counted.step (backend : Backend) (label : CountedLabel) (c : Counted) : Option Counted :=
  match label with
  | .step label => (c.sys.step backend label).map fun sys =>
      ⟨sys, c.stats.apply (c.sys.record backend label)⟩
  | .reset device =>
    if c.sys.owner = none then
      some { c with stats := fun d k =>
        if d = device then resetStats (c.stats d k) else c.stats d k }
    else none

/-- No memory has been allocated. -/
def Counted.init (threads : ℕ) : Counted := ⟨.init threads, fun _ _ => {}⟩

/-- The share of an entry in the memory of a device. -/
def Allocation.share (device : ℕ) (a : Allocation) : ℕ := if a.deviceIndex = device then a.size else 0

/-- The sizes of the entries of a device. -/
def State.bytes (s : State) (kind : Kind) (device : ℕ) : ℕ :=
  ((s.allocations kind).map (Allocation.share device)).sum

/-- What allocators promise: less than `2 ^ 64` bytes are allocated at a time, and the HSA runtime
returns no address of memory that is allocated. -/
def Counted.Allocates (backend : Backend) (c : Counted) : CountedLabel → Prop
  | .step (.call _ (.malloc kind device size) inputs) => ∀ base, inputs.allocated = some base →
      c.sys.shared.bytes kind device + size < 2 ^ 64 ∧
        (backend = .hsa → c.sys.shared.find kind base = none)
  | _ => True

/-! ## The entries -/

section Entries

variable {s s' : State} {kind : Kind} {base device : ℕ} {backend : Backend}

/-- The registries have the same entries, but for counts and flags. -/
structure State.SameBytes (s s' : State) : Prop where
  bytes : s'.bytes = s.bytes
  keyed : s.Keyed → s'.Keyed

theorem State.SameBytes.refl (s : State) : s.SameBytes s := ⟨rfl, id⟩

theorem State.SameBytes.trans {s'' : State} (h : s.SameBytes s') (h' : s'.SameBytes s'') :
    s.SameBytes s'' :=
  ⟨h'.bytes.trans h.bytes, h'.keyed ∘ h.keyed⟩

/-- A change of a count or of a flag. -/
theorem State.sameBytes_update (s : State) (kind : Kind) (base : ℕ) {g : Allocation → Allocation}
    (hbase : ∀ a, (g a).base = a.base) (hshare : ∀ a device, (g a).share device = a.share device) :
    s.SameBytes (s.update kind base g) := by
  refine ⟨?_, fun hkeyed => hkeyed.update hbase⟩
  funext kind' device
  have hmap : (fun a : Allocation => (if a.base = base then g a else a).share device) =
      Allocation.share device := by
    funext a
    split
    · exact hshare a device
    · rfl
  by_cases heq : kind' = kind
  · subst heq
    simp [State.bytes, State.update, Function.comp_def, hmap]
  · simp [State.bytes, State.update, heq]

/-- A change of a flag. -/
theorem State.sameBytes_flag (s : State) (kind : Kind) (base : ℕ) (flag : Bool) :
    s.SameBytes (s.update kind base fun a => { a with destroying := flag }) :=
  s.sameBytes_update kind base (fun _ => rfl) fun _ _ => rfl

/-- A pin. -/
theorem sameBytes_pin {p : Pin} {full : Bool} (h : pin p full s = some s') : s.SameBytes s' := by
  unfold pin at h
  split at h
  · cases h
  · split at h
    · cases h
    · obtain rfl := Option.some.inj h
      exact s.sameBytes_update p.1 p.2 (fun _ => rfl) fun _ _ => rfl

/-- Some pins. -/
theorem sameBytes_pinAll (ps : List Pin) (full : List Bool) (s : State) :
    s.SameBytes (pinAll ps full s).2.2 := by
  induction ps generalizing full s with
  | nil => exact .refl s
  | cons p rest ih =>
    rw [pinAll]
    split
    · exact .refl s
    · rename_i next hpin
      exact (sameBytes_pin hpin).trans (ih full.tail next)

/-- Pins are given back. -/
theorem sameBytes_releasePins (pins : List Pin) (s : State) : s.SameBytes (releasePins pins s) := by
  induction pins generalizing s with
  | nil => exact .refl s
  | cons p rest ih =>
    have hfirst : s.SameBytes (s.update p.1 p.2 fun a =>
        { a with activeOperations := a.activeOperations - 1 }) :=
      s.sameBytes_update p.1 p.2 (fun _ => rfl) fun _ _ => rfl
    exact hfirst.trans (ih _)

/-- The checks of a copy. -/
theorem sameBytes_accept (backend : Backend) (copy : Copy) (full : List Bool) (s : State) :
    s.SameBytes (accept backend copy full s).2 := by
  have hpins := fun ps full => sameBytes_pinAll ps full s
  have hback := fun ps full => (hpins ps full).trans
    (sameBytes_releasePins (pinAll ps full s).2.1 (pinAll ps full s).2.2)
  unfold accept
  split
  · exact .refl s
  · split
    · dsimp only
      split
      · exact hback _ _
      · split
        · exact (((hpins _ _).trans (sameBytes_pinAll _ _ _)).trans
            (sameBytes_releasePins _ _)).trans (sameBytes_releasePins _ _)
        · exact (hpins _ _).trans (sameBytes_pinAll _ _ _)
    · split <;> exact .refl s
    · split
      · exact .refl s
      · dsimp only
        split
        · exact hback _ _
        · exact hpins _ _

/-- One entry and the others. -/
theorem sum_map_others {l : List Allocation} (hnodup : (l.map Allocation.base).Nodup)
    {a : Allocation} (ha : a ∈ l) (f : Allocation → ℕ) :
    ((l.filter fun b => decide (b.base ≠ a.base)).map f).sum + f a = (l.map f).sum := by
  induction l with
  | nil => cases ha
  | cons b l ih =>
    obtain ⟨hb, hrest⟩ := List.nodup_cons.mp hnodup
    rcases List.mem_cons.mp ha with rfl | ha
    · have hall : l.filter (fun b => decide (b.base ≠ a.base)) = l :=
        List.filter_eq_self.mpr fun c hc => decide_eq_true fun heq =>
          hb (List.mem_map.mpr ⟨c, hc, heq⟩)
      rw [List.filter_cons_of_neg (by simp), hall, List.map_cons, List.sum_cons, Nat.add_comm]
    · have hne : b.base ≠ a.base := fun heq => hb (List.mem_map.mpr ⟨a, ha, heq.symm⟩)
      rw [List.filter_cons_of_pos (by simpa using hne), List.map_cons, List.sum_cons,
        List.map_cons, List.sum_cons, Nat.add_assoc, ih hrest ha]

/-- The bytes after a registry has changed. -/
theorem State.bytes_of_allocations {entries : List Allocation}
    (h : s'.allocations = Function.update s.allocations kind entries) (kind' : Kind) (device : ℕ) :
    s'.bytes kind' device =
      if kind' = kind then (entries.map (Allocation.share device)).sum else s.bytes kind' device := by
  rw [State.bytes, h]
  split
  · rename_i heq
    rw [heq, Function.update_self]
  · rename_i hne
    rw [Function.update_of_ne hne]
    rfl

/-- What a record says of the entries. -/
def State.Records (s s' : State) : Option Record → Prop
  | none => s.SameBytes s'
  | some (.allocated kind device size) => s'.Keyed ∧ s.bytes kind device + size < 2 ^ 64 ∧
      ∀ k d, s'.bytes k d = s.bytes k d + if k = kind ∧ d = device then size else 0
  | some (.freed kind device size) => s'.Keyed ∧
      ∀ k d, s'.bytes k d + (if k = kind ∧ d = device then size else 0) = s.bytes k d

variable {inputs : Inputs}

/-- `lr_malloc` and `lr_host_malloc`. -/
theorem records_malloc {size : ℕ} (hkeyed : s.Keyed)
    (hfits : ∀ base, inputs.allocated = some base →
      s.bytes kind device + size < 2 ^ 64 ∧ (backend = .hsa → s.find kind base = none)) :
    s.Records (malloc backend kind device size inputs s).2
      (if (malloc backend kind device size inputs s).1 = .returned .success then
        some (.allocated kind device size) else none) := by
  unfold malloc
  split
  · exact .refl s
  · split
    · exact .refl s
    · rename_i base hbase
      obtain ⟨hlt, hfresh⟩ := hfits base hbase
      split
      · exact .refl s
      · rename_i hnew
        have hnone : s.find kind base = none := by
          by_cases hhsa : backend = .hsa
          · exact hfresh hhsa
          · exact Option.not_isSome_iff_eq_none.mp fun hsome => hnew ⟨hhsa, .inr hsome⟩
        have hothers : s.others kind base = s.allocations kind :=
          List.filter_eq_self.mpr fun a ha =>
            decide_eq_true (by simpa using List.find?_eq_none.mp hnone a ha)
        have hnodup := (hkeyed.others kind base).2
        rw [if_pos rfl]
        refine ⟨hkeyed.of_allocations rfl ?_, hlt, fun k d => ?_⟩
        · rw [List.map_append, List.map_singleton]
          exact List.Nodup.append (hkeyed.others kind base).1 (List.nodup_singleton _)
            (List.disjoint_singleton.mpr hnodup)
        · have hentries : (s.allocations kind).filter (fun a => decide (a.base ≠ base)) =
              s.allocations kind := hothers
          rw [State.bytes_of_allocations rfl, hentries, List.map_append, List.sum_append]
          by_cases hk : k = kind
          · subst hk
            simp [State.bytes, Allocation.share, eq_comm]
          · simp [hk]

/-- `lr_free` and `lr_host_free` after the synchronization of the device. -/
theorem records_finishFree {ptr : ℕ} {result : Task × State} (hkeyed : s.Keyed)
    (h : finishFree backend kind ptr inputs s = some result) :
    s.Records result.2 (if result.1 = .returned .success then
      (s.find kind ptr).map fun a => .freed kind a.deviceIndex a.size else none) := by
  have hflag : ∀ s : State, s.SameBytes (abandonFree kind ptr s) := fun s =>
    s.sameBytes_flag kind ptr false
  unfold finishFree at h
  split at h
  · rename_i hstatus
    obtain rfl := Option.some.inj h
    rw [if_neg fun heq => hstatus (Task.returned.inj heq)]
    exact hflag s
  · split at h
    · cases h
    · rename_i a ha
      split at h
      · obtain rfl := Option.some.inj h
        rw [if_pos rfl, ha]
        obtain rfl : a.base = ptr := State.base_of_find ha
        refine ⟨hkeyed.of_allocations rfl (hkeyed.others kind a.base).1, fun k d => ?_⟩
        rw [State.bytes_of_allocations rfl]
        by_cases hk : k = kind
        · subst hk
          have hsum := sum_map_others (hkeyed k) (List.mem_of_find?_eq_some ha) (Allocation.share d)
          simpa [State.bytes, Allocation.share, eq_comm] using hsum
        · simp [hk]
      · obtain rfl := Option.some.inj h
        exact hflag s
      · obtain rfl := Option.some.inj h
        refine State.SameBytes.trans ?_ (hflag _)
        split
        · exact .refl s
        · exact ⟨rfl, id⟩

/-- What a call records when it goes on. -/
theorem records_resume {task : Task} {result : Task × State} (hkeyed : s.Keyed)
    (h : task.resume backend inputs s = some result) :
    s.Records result.2 (task.frees.bind fun p => if result.1 = .returned .success then
      (s.find p.1 p.2).map fun a => .freed p.1 a.deviceIndex a.size else none) := by
  cases task with
  | ready => cases h
  | returned status => cases h
  | freeWait kind ptr =>
    simp only [Task.resume, resumeFree] at h
    split at h
    · obtain ⟨-, rfl⟩ := Run.of_guard h
      exact .refl s
    · split at h
      · obtain rfl := Option.some.inj h
        exact .refl s
      · split at h
        · exact records_finishFree hkeyed h
        · obtain rfl := Option.some.inj h
          exact .refl s
  | freeSync kind ptr => exact records_finishFree hkeyed h
  | copySync accepted =>
    simp only [Task.resume] at h
    split at h
    · obtain rfl := Option.some.inj h
      exact sameBytes_releasePins _ s
    · obtain rfl := Option.some.inj h
      exact .refl s
  | copying accepted =>
    obtain rfl := Option.some.inj h
    exact sameBytes_releasePins _ s

/-- What a step records. -/
theorem records_step {sys sys' : Sys} {label : Label} {stats : Statistics}
    (hkeyed : sys.shared.Keyed) (hallocates : (⟨sys, stats⟩ : Counted).Allocates backend (.step label))
    (h : sys.step backend label = some sys') :
    sys.shared.Records sys'.shared (sys.record backend label) := by
  cases label with
  | call t call inputs =>
    simp only [Sys.step] at h
    obtain ⟨-, h⟩ := Option.ite_none_right_eq_some.mp h
    have hshared : sys'.shared = (call.begin backend inputs sys.shared).2 := by
      split at h
      · obtain rfl := Option.some.inj h
        rfl
      · obtain rfl := Option.some.inj h
        rfl
      · cases h
    rw [hshared]
    cases call with
    | malloc kind device size => exact records_malloc hkeyed hallocates
    | free kind device ptr =>
      simp only [Call.begin, beginFree]
      split
      · exact .refl _
      · split
        · exact .refl _
        · exact State.sameBytes_flag _ kind ptr true
    | memcpy copy =>
      simp only [Call.begin]
      split
      · exact .refl _
      · have haccept := sameBytes_accept backend copy inputs.full sys.shared
        split
        · rename_i heq
          rw [heq] at haccept
          exact haccept
        · rename_i heq
          rw [heq] at haccept
          exact haccept
    | synchronize device => exact .refl _
  | resume t inputs =>
    simp only [Sys.step] at h
    obtain ⟨-, h⟩ := Option.ite_none_right_eq_some.mp h
    split at h
    · rename_i task ht
      obtain ⟨result, hresume, rfl⟩ := Option.map_eq_some_iff.mp h
      have hrecords := records_resume hkeyed hresume
      simp only [Sys.record, ht, Option.bind_some, hresume, Option.map_some, Option.some.injEq]
      exact hrecords
    · cases h
  | rehash kind entries =>
    obtain ⟨⟨-, hperm⟩, rfl⟩ := Run.of_guard h
    refine ⟨?_, fun hkeyed => hkeyed.of_allocations rfl ((hperm.map _).nodup_iff.mpr (hkeyed kind))⟩
    funext kind' device
    rw [State.bytes_of_allocations rfl]
    split
    · rename_i heq
      subst heq
      exact (hperm.map _).sum_eq
    · rfl

end Entries

/-! ## The counters -/

section Counters

variable {backend : Backend} {c c' : Counted} {label : CountedLabel}

/-- What holds of the counters at any time. -/
structure Counted.Sound (c : Counted) : Prop where
  keyed : c.sys.shared.Keyed
  /-- The live bytes are the sizes of the entries. -/
  live : ∀ device kind, (c.stats device kind).liveBytes.toNat = c.sys.shared.bytes kind device
  peak : ∀ device kind, (c.stats device kind).liveBytes ≤ (c.stats device kind).peakLiveBytes

/-- Total allocated bytes, less total freed and live bytes. -/
def Counters.drift (stats : Counters) : UInt64 :=
  stats.totalAllocatedBytes - stats.totalFreedBytes - stats.liveBytes

/-- An allocation changes the totals as it changes the live bytes. -/
theorem drift_recordAllocation (size : UInt64) (stats : Counters) :
    (recordAllocation size stats).drift = stats.drift := by
  simp only [Counters.drift, recordAllocation]
  grind

/-- So does a free that is not clamped. -/
theorem drift_recordFree {size : UInt64} {stats : Counters} (h : size ≤ stats.liveBytes) :
    (recordFree size stats).drift = stats.drift := by
  simp only [Counters.drift, recordFree, if_neg (UInt64.not_lt.mpr h)]
  grind

/-- What a free that is recorded takes away is there. -/
theorem Counted.Sound.not_clamped (h : c.Sound) {s' : State} {kind : Kind} {device size : ℕ}
    (hrecords : c.sys.shared.Records s' (some (.freed kind device size))) :
    UInt64.ofNat size ≤ (c.stats device kind).liveBytes := by
  have hsum := hrecords.2 kind device
  rw [if_pos ⟨rfl, rfl⟩] at hsum
  rw [UInt64.le_iff_toNat_le, h.live, ← hsum]
  exact (Nat.mod_le _ _).trans (Nat.le_add_left _ _)

/-- A record keeps the counters in step with the entries. -/
theorem Counted.Sound.apply (h : c.Sound) {sys' : Sys} {record : Option Record}
    (hrecords : c.sys.shared.Records sys'.shared record) :
    (⟨sys', c.stats.apply record⟩ : Counted).Sound ∧
      ∀ device kind, (c.stats.apply record device kind).drift = (c.stats device kind).drift := by
  cases record with
  | none =>
    refine ⟨⟨hrecords.keyed h.keyed, fun device kind => ?_, h.peak⟩, fun _ _ => rfl⟩
    exact (h.live device kind).trans (congrFun₂ hrecords.bytes kind device).symm
  | some record =>
    cases record with
    | allocated kind device size =>
      obtain ⟨hkeyed, hlt, hbytes⟩ := hrecords
      have hlive : (recordAllocation (.ofNat size) (c.stats device kind)).liveBytes.toNat =
          c.sys.shared.bytes kind device + size := by
        rw [recordAllocation, UInt64.toNat_add, h.live, UInt64.toNat_ofNat_of_lt' (by
          simp only [UInt64.size]; omega), Nat.mod_eq_of_lt hlt]
      refine ⟨⟨hkeyed, fun d k => ?_, fun d k => ?_⟩, fun d k => ?_⟩
      all_goals simp only [Statistics.apply, Statistics.change]
      all_goals split
      · rename_i heq
        obtain ⟨rfl, rfl⟩ := heq
        rw [hlive, hbytes, if_pos ⟨rfl, rfl⟩]
      · rename_i hne
        rw [h.live, hbytes, if_neg fun heq => hne ⟨heq.2, heq.1⟩, Nat.add_zero]
      · simp only [recordAllocation]
        split
        · exact UInt64.le_refl _
        · rename_i hpeak
          exact UInt64.not_lt.mp hpeak
      · exact h.peak d k
      · exact drift_recordAllocation _ _
      · rfl
    | freed kind device size =>
      have hfits := h.not_clamped hrecords
      obtain ⟨hkeyed, hbytes⟩ := hrecords
      have hlive : (recordFree (.ofNat size) (c.stats device kind)).liveBytes.toNat + size =
          c.sys.shared.bytes kind device := by
        have hsum := hbytes kind device
        have hsmall := (c.stats device kind).liveBytes.toNat_lt
        rw [if_pos ⟨rfl, rfl⟩] at hsum
        rw [h.live] at hsmall
        have hsize : (UInt64.ofNat size).toNat = size :=
          UInt64.toNat_ofNat_of_lt' (by simp only [UInt64.size]; omega)
        rw [recordFree, if_neg (UInt64.not_lt.mpr hfits), UInt64.toNat_sub_of_le _ _ hfits, h.live,
          hsize]
        omega
      refine ⟨⟨hkeyed, fun d k => ?_, fun d k => ?_⟩, fun d k => ?_⟩
      all_goals simp only [Statistics.apply, Statistics.change]
      all_goals split
      · rename_i heq
        obtain ⟨rfl, rfl⟩ := heq
        have hsum := hbytes k d
        rw [if_pos ⟨rfl, rfl⟩] at hsum
        omega
      · rename_i hne
        have hsum := hbytes k d
        rw [if_neg fun heq => hne ⟨heq.2, heq.1⟩, Nat.add_zero] at hsum
        rw [h.live, hsum]
      · rename_i heq
        obtain ⟨rfl, rfl⟩ := heq
        simp only [recordFree, if_neg (UInt64.not_lt.mpr hfits)]
        exact UInt64.le_trans (UInt64.sub_le hfits) (h.peak d k)
      · exact h.peak d k
      · rename_i heq
        obtain ⟨rfl, rfl⟩ := heq
        exact drift_recordFree hfits
      · rfl

/-- A step keeps the counters in step with the entries, and the drift of a device that it does not
reset. -/
theorem Counted.Sound.step (h : c.Sound) (hallocates : c.Allocates backend label)
    (hstep : c.step backend label = some c') :
    c'.Sound ∧ ∀ device kind, label ≠ .reset device →
      (c'.stats device kind).drift = (c.stats device kind).drift := by
  cases label with
  | step label =>
    obtain ⟨sys', hsys, rfl⟩ := Option.map_eq_some_iff.mp hstep
    obtain ⟨hsound, hdrift⟩ := h.apply (records_step h.keyed hallocates hsys)
    exact ⟨hsound, fun device kind _ => hdrift device kind⟩
  | reset reset =>
    obtain ⟨-, rfl⟩ := Run.of_guard hstep
    refine ⟨⟨h.keyed, fun device kind => ?_, fun device kind => ?_⟩, fun device kind hne => ?_⟩
    all_goals dsimp only
    all_goals split
    · exact h.live device kind
    · exact h.live device kind
    · exact UInt64.le_refl _
    · exact h.peak device kind
    · rename_i heq
      exact absurd (congrArg CountedLabel.reset heq.symm) hne
    · rfl

/-- Between resets of a device, its drift stays. -/
theorem Counted.Sound.drift (h : c.Sound) {labels : List CountedLabel}
    (hrun : Run.Steps (Counted.step backend) (Counted.Allocates backend) c labels c')
    {device : ℕ} (hreset : CountedLabel.reset device ∉ labels) (kind : Kind) :
    (c'.stats device kind).drift = (c.stats device kind).drift := by
  induction hrun with
  | nil => rfl
  | cons hok hstep _ ih =>
    obtain ⟨hsound, hdrift⟩ := h.step hok hstep
    rw [ih hsound fun hmem => hreset (List.mem_cons_of_mem _ hmem)]
    exact hdrift device kind fun heq => hreset (heq ▸ List.mem_cons_self)

/-- Whatever calls the threads make and however they end, the live bytes of a device are the sizes
of its entries and not above the peak, no free is clamped, and the total of allocated less freed
bytes changes with the live bytes until the next reset. -/
theorem statistics_match_entries {threads : ℕ} {labels : List CountedLabel}
    (hrun : Run.Steps (Counted.step backend) (Counted.Allocates backend) (Counted.init threads)
      labels c) :
    (∀ device kind, (c.stats device kind).liveBytes.toNat = c.sys.shared.bytes kind device ∧
      (c.stats device kind).liveBytes ≤ (c.stats device kind).peakLiveBytes) ∧
    (∀ label sys' kind device size, c.Allocates backend (.step label) →
      c.sys.step backend label = some sys' →
      c.sys.record backend label = some (.freed kind device size) →
      ¬(c.stats device kind).liveBytes < UInt64.ofNat size) ∧
    ∀ later c' device kind, Run.Steps (Counted.step backend) (Counted.Allocates backend) c later c' →
      CountedLabel.reset device ∉ later →
      (c'.stats device kind).totalAllocatedBytes - (c'.stats device kind).totalFreedBytes -
          ((c.stats device kind).totalAllocatedBytes - (c.stats device kind).totalFreedBytes) =
        (c'.stats device kind).liveBytes - (c.stats device kind).liveBytes := by
  have hinit : (Counted.init threads).Sound :=
    ⟨fun _ => List.nodup_nil, fun _ _ => rfl, fun _ _ => UInt64.le_refl _⟩
  have hsound : c.Sound := hrun.invariant (fun _ _ _ h hok hstep => (h.step hok hstep).1) hinit
  refine ⟨fun device kind => ⟨hsound.live device kind, hsound.peak device kind⟩, ?_, ?_⟩
  · intro label sys' kind device size hallocates hstep hrecord
    have hrecords := records_step hsound.keyed hallocates hstep
    rw [hrecord] at hrecords
    exact UInt64.not_lt.mpr (hsound.not_clamped hrecords)
  · intro later c' device kind hlater hreset
    have hdrift := hsound.drift hlater hreset kind
    simp only [Counters.drift] at hdrift
    grind

end Counters

/-- Two allocations, of which one fails, a free that fails, a reset and a free. -/
def resetBetween : List CountedLabel :=
  [.step (.call 0 (.malloc .device 0 100) { allocated := some 4096 }),
    .step (.call 0 (.malloc .device 0 50) {}),
    .step (.call 0 (.free .device 0 4096) {}), .step (.resume 0 {}),
    .step (.resume 0 { release := .partly }),
    .reset 0,
    .step (.call 0 (.free .device 0 4096) {}), .step (.resume 0 {}), .step (.resume 0 {})]

/-- The promise of the allocators of the light backends, as a check. -/
def Counted.fits (c : Counted) : CountedLabel → Bool
  | .step (.call _ (.malloc kind device size) _) =>
    decide (c.sys.shared.bytes kind device + size < 2 ^ 64)
  | _ => true

/-- After the reset and the free nothing is live, and the totals say so. -/
theorem statistics_match_reset : ∃ c : Counted,
    Run.Steps (Counted.step .directKfd) (Counted.Allocates .directKfd) (Counted.init 1)
      resetBetween c ∧
      (c.stats 0 .device).totalFreedBytes = 100 ∧ (c.stats 0 .device).peakLiveBytes = 100 ∧
      (c.stats 0 .device).liveBytes.toNat = c.sys.shared.bytes .device 0 ∧
      c.sys.shared.bytes .device 0 = 0 := by
  obtain ⟨c, hexec, hend⟩ : ∃ c : Counted,
      Run.exec (Run.checked Counted.fits (Counted.step .directKfd)) resetBetween (Counted.init 1) =
        some c ∧
      ((c.stats 0 .device).totalFreedBytes = 100 ∧ (c.stats 0 .device).peakLiveBytes = 100 ∧
        c.sys.shared.bytes .device 0 = 0) :=
    Run.exists_of_exec (by decide +kernel)
  have hrun : Run.Steps (Counted.step .directKfd) (Counted.Allocates .directKfd)
      (Counted.init 1) resetBetween c := by
    refine Run.Steps.of_exec_checked (fun s label hcheck => ?_) hexec
    unfold Counted.Allocates
    split
    · exact fun base _ => ⟨of_decide_eq_true hcheck, by rintro ⟨⟩⟩
    · trivial
  exact ⟨c, hrun, hend.1, hend.2.1, ((statistics_match_entries hrun).1 0 .device).1, hend.2.2⟩

end LightRocm.Memory
