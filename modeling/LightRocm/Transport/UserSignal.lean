import LightRocm.Lib.Run
import LightRocm.Transport.Memory

/-!
# User signals

`create_user_signal` and the release of a signal, from `transport/kfd/signal.cpp`. Signals share
pages of memory: a session keeps weak references to its pages, which a thread that
creates a signal scans under the lock of the session; a slot is taken and given back under the
lock of the page. The last signal of a page releases its memory.
-/

namespace LightRocm.Transport

open Program

/-- `SignalPage`. The memory as it was at first and the number of attempts to release it are
recorded for the proofs. -/
structure SignalPage where
  gpuId : ℕ
  allocation : RawMemoryAllocation
  slots : List Bool := List.replicate 64 false
  activeSlots : ℕ := 0
  /-- No reference to the page is left. -/
  destroyed : Bool := false
  /-- The memory that the page was made with. -/
  original : RawMemoryAllocation := allocation
  /-- How often `MemoryAllocation::release` has been called. -/
  attempts : ℕ := 0

/-- `MemoryAllocation::operator bool`. -/
def RawMemoryAllocation.owned (allocation : RawMemoryAllocation) : Bool :=
  allocation.reservationAddress.isSome || decide (allocation.handle ≠ 0)

/-- `SignalPage::acquire`: the page and the slot. -/
def SignalPage.acquire (page : SignalPage) : Option (SignalPage × ℕ) :=
  if page.allocation.owned = false ∨ page.allocation.hostAddress = none ∨
      page.allocation.shownAddress = 0 then none
  else (page.slots.findIdx? fun slot => !slot).map fun index =>
    ({ page with slots := page.slots.set index true, activeSlots := page.activeSlots + 1 }, index)

/-- A slot is given back. -/
def SignalPage.freeSlot (page : SignalPage) (slot : ℕ) : SignalPage :=
  { page with slots := page.slots.set slot false, activeSlots := page.activeSlots - 1 }

/-- `MemoryAllocation::release` of the memory of a page. -/
def SignalPage.releaseAllocation (p : ℕ) (page : SignalPage) : Calls (MemoryStatus × SignalPage) := do
  match ← releaseMemory ⟨p, .memory⟩ page.allocation with
  | (some failure, allocation) =>
    return (some failure, { page with allocation := allocation, attempts := page.attempts + 1 })
  | (none, _) => return (none, { page with allocation := {}, attempts := page.attempts + 1 })

/-- `SignalPage::release`. -/
def SignalPage.release (p slot : ℕ) (page : SignalPage) : Calls (MemoryStatus × SignalPage) := do
  if page.slots[slot]? ≠ some true then return (none, page)
  else if page.activeSlots = 1 then
    match ← page.releaseAllocation p with
    | (some failure, page) => return (some failure, page)
    | (none, page) => return (none, page.freeSlot slot)
  else return (none, page.freeSlot slot)

/-- The destructor of a page: what its memory still owns is released. -/
def SignalPage.destroy (p : ℕ) (kernel : Kernel) (page : SignalPage) : SignalPage :=
  { ((page.releaseAllocation p) kernel).1.2 with destroyed := true }

/-- Where a thread is in `create_user_signal`. -/
inductive SignalTask where
  | idle
  /-- It scans the pages of the session from `index` on, with the lock. -/
  | scanning (gpuId index : ℕ)
  /-- It allocates memory for a new page. -/
  | allocating (gpuId : ℕ)
  /-- It has a slot of a new page, which is not known to the session. -/
  | publishing (page slot : ℕ)
  deriving DecidableEq

/-- The page that only the thread knows. -/
def SignalTask.page : SignalTask → Option ℕ
  | .publishing page _ => some page
  | .idle | .scanning _ _ | .allocating _ => none

/-- The result of `allocate_gtt`, and whether there is host memory for the page. -/
structure AllocateResult where
  ok : Bool
  allocation : RawMemoryAllocation
  noMemory : Bool := false

/-- The pages, the session, and who owns slots. -/
structure Signals where
  pages : List SignalPage
  /-- `signal_pages`, the weak references of the session. -/
  signalPages : List ℕ
  lock : Option ℕ
  tasks : List SignalTask
  /-- The signals that own a page and a slot. -/
  signals : List (ℕ × ℕ)

/-- What happens next. -/
inductive SignalLabel where
  /-- Thread `t` calls `create_user_signal` for a device. -/
  | create (t gpuId : ℕ)
  /-- It looks at the next page. -/
  | scan (t : ℕ)
  /-- It allocates. -/
  | allocate (t : ℕ) (result : AllocateResult)
  /-- It adds its page to the session, if there is memory for the reference. -/
  | publish (t : ℕ) (noMemory : Bool)
  /-- `UserSignal::release`, with the answers of the kernel. -/
  | release (signal : ℕ × ℕ) (kernel : Kernel)
  /-- The destructor of a signal. -/
  | drop (signal : ℕ × ℕ) (kernel : Kernel)
  /-- The destructor of a page to which no reference is left. -/
  | destroyPage (p : ℕ) (kernel : Kernel)

/-- Thread `t` has returned, with a signal that owns a new page. -/
def Signals.retain (s : Signals) (t : ℕ) (page : SignalPage) : Signals :=
  { s with
    pages := s.pages ++ [{ page with slots := page.slots.set 0 true, activeSlots := 1 }]
    tasks := s.tasks.set t .idle
    signals := s.signals ++ [(s.pages.length, 0)] }

/-- The end of `create_user_signal`, after the allocation. -/
def Signals.allocate (s : Signals) (t gpuId : ℕ) (result : AllocateResult) : Signals :=
  let page : SignalPage := { gpuId := gpuId, allocation := result.allocation }
  let failed := { s with tasks := s.tasks.set t .idle }
  if result.ok = false then
    if result.allocation.owned = false ∨ result.noMemory = true then failed else s.retain t page
  else if result.allocation.hostAddress.any (fun address => address % 64 ≠ 0) ∨
      result.allocation.shownAddress % 64 ≠ 0 then
    if result.noMemory = true then failed else s.retain t page
  else if result.noMemory = true then failed
  else
    match page.acquire with
    | none => failed
    | some (page, slot) =>
      { s with
        pages := s.pages ++ [page]
        tasks := s.tasks.set t (.publishing s.pages.length slot) }

/-- Thread `t` looks at a page of the list. -/
def Signals.look (s : Signals) (t gpuId index p : ℕ) (page : SignalPage) : Signals :=
  if page.destroyed then { s with signalPages := s.signalPages.eraseIdx index }
  else
    match if page.gpuId = gpuId then page.acquire else none with
    | some (page, slot) =>
      { s with
        pages := s.pages.set p page
        lock := none
        tasks := s.tasks.set t .idle
        signals := s.signals ++ [(p, slot)] }
    | none => { s with tasks := s.tasks.set t (.scanning gpuId (index + 1)) }

/-- A signal is released; `drop` tells that it is destroyed too. -/
def Signals.release (s : Signals) (signal : ℕ × ℕ) (drop : Bool) (kernel : Kernel)
    (page : SignalPage) : Signals :=
  let result := ((page.release signal.1 signal.2) kernel).1
  { s with
    pages := s.pages.set signal.1 result.2
    signals := if drop ∨ result.1 = none then s.signals.erase signal else s.signals }

/-- One step. -/
def Signals.step (label : SignalLabel) (s : Signals) : Option Signals :=
  match label with
  | .create t gpuId =>
    if s.tasks[t]? = some .idle ∧ s.lock = none then
      some { s with lock := some t, tasks := s.tasks.set t (.scanning gpuId 0) }
    else none
  | .scan t =>
    match s.tasks[t]? with
    | some (.scanning gpuId index) =>
      match s.signalPages[index]? with
      | none => some { s with lock := none, tasks := s.tasks.set t (.allocating gpuId) }
      | some p => (s.pages[p]?).map (s.look t gpuId index p)
    | _ => none
  | .allocate t result =>
    match s.tasks[t]? with
    | some (.allocating gpuId) => some (s.allocate t gpuId result)
    | _ => none
  | .publish t noMemory =>
    match s.tasks[t]? with
    | some (.publishing page slot) =>
      if s.lock ≠ none then none
      else if noMemory = true then some { s with tasks := s.tasks.set t .idle }
      else some { s with
        signalPages := s.signalPages ++ [page]
        tasks := s.tasks.set t .idle
        signals := s.signals ++ [(page, slot)] }
    | _ => none
  | .release signal kernel =>
    if signal ∈ s.signals then (s.pages[signal.1]?).map (s.release signal false kernel) else none
  | .drop signal kernel =>
    if signal ∈ s.signals then (s.pages[signal.1]?).map (s.release signal true kernel) else none
  | .destroyPage p kernel =>
    if (∀ signal ∈ s.signals, signal.1 ≠ p) ∧ ∀ task ∈ s.tasks, task.page ≠ some p then
      (s.pages[p]?).map fun page => { s with pages := s.pages.set p (page.destroy p kernel) }
    else none

/-- No signal has been created. -/
def Signals.init (threads : ℕ) : Signals where
  pages := []
  signalPages := []
  lock := none
  tasks := List.replicate threads .idle
  signals := []

/-! ## One page -/

section Page

variable {page page' : SignalPage} {p slot : ℕ} {kernel : Kernel}

/-- Without devices, an allocation shows no address. -/
theorem RawMemoryAllocation.shownAddress_of_gpuIds {raw : RawMemoryAllocation}
    (h : raw.gpuIds = []) : raw.shownAddress = 0 := by
  simp [RawMemoryAllocation.shownAddress, RawMemoryAllocation.gpuMapped, h]

/-- An attempt to unmap memory changes nothing, or the device has lost a part of it. -/
theorem unmapMemory_changes {owner : Name} {allocation : RawMemoryAllocation} :
    (unmapMemory owner allocation).Ensures kernel fun result _ =>
      (result.2 = allocation ∨ result.2.shownAddress = 0) ∧
        (result.1 = none → result.2.gpuIds = []) := by
  unfold unmapMemory
  refine Ensures.ite (fun _ => ⟨.inr (RawMemoryAllocation.shownAddress_of_gpuIds rfl),
    fun _ => rfl⟩) fun _ => ?_
  refine Ensures.ite (fun _ => ⟨.inl rfl, by rintro ⟨⟩⟩) fun _ => ?_
  refine Ensures.ite (fun _ => ⟨.inl rfl, by rintro ⟨⟩⟩) fun _ => ?_
  refine Ensures.bind (Ensures.of_forall fun _ _ => trivial) fun progress _ _ => ?_
  refine Ensures.ite (fun _ => ⟨.inl rfl, by rintro ⟨⟩⟩) fun _ => ?_
  refine Ensures.ite (fun _ => ⟨.inl rfl, by rintro ⟨⟩⟩) fun hle => ?_
  have hpart : ({ allocation with unmappedDeviceCount := progress.1 } : RawMemoryAllocation) =
      allocation ∨ ({ allocation with
        unmappedDeviceCount := progress.1 } : RawMemoryAllocation).shownAddress = 0 := by
    by_cases hzero : progress.1 = 0
    · have hmapped : allocation.unmappedDeviceCount = 0 := by omega
      exact .inl (by rw [hzero, ← hmapped])
    · exact .inr (by simp [RawMemoryAllocation.shownAddress, RawMemoryAllocation.gpuMapped, hzero])
  refine Ensures.ite (fun _ => ⟨hpart, by rintro ⟨⟩⟩) fun _ => ?_
  refine Ensures.ite (fun _ => ⟨hpart, by rintro ⟨⟩⟩) fun _ => ?_
  exact ⟨.inr (RawMemoryAllocation.shownAddress_of_gpuIds rfl), fun _ => rfl⟩

/-- So does an attempt to release it. -/
theorem releaseMemory_changes {owner : Name} {allocation : RawMemoryAllocation} :
    (releaseMemory owner allocation).Ensures kernel fun result _ =>
      result.2 = allocation ∨ result.2.shownAddress = 0 := by
  have hfree : ∀ {raw : RawMemoryAllocation} {kernel : Kernel}, raw.gpuIds = [] →
      (freeBuffer owner raw).Ensures kernel fun result _ =>
        result.2 = allocation ∨ result.2.shownAddress = 0 := by
    intro raw kernel hids
    have hlost := RawMemoryAllocation.shownAddress_of_gpuIds hids
    unfold freeBuffer
    refine Ensures.ite (fun _ => .inr rfl) fun _ => ?_
    refine Ensures.bind (Ensures.of_forall fun _ _ => trivial) fun freed _ _ => ?_
    exact Ensures.ite (fun _ => .inr hlost) fun _ => .inr rfl
  unfold releaseMemory
  refine Ensures.ite (fun _ => .inl rfl) fun _ => Ensures.bind unmapMemory_changes ?_
  rintro ⟨status, raw⟩ after ⟨hraw, hids⟩
  cases status with
  | some failure => exact hraw
  | none =>
    have hids : raw.gpuIds = [] := hids rfl
    have hlost := RawMemoryAllocation.shownAddress_of_gpuIds hids
    cases hreserved : raw.reservationAddress with
    | none =>
      simp only [hreserved]
      exact hfree hids
    | some address =>
      simp only [hreserved]
      refine Ensures.bind (Ensures.of_forall fun _ _ => trivial) fun unmapped _ _ => ?_
      exact Ensures.ite (fun _ => .inr hlost) fun _ => hfree hids

/-- The memory of a page is as at first, or the device has lost a part of it. -/
def SignalPage.Intact (page : SignalPage) : Prop :=
  page.allocation = page.original ∨ page.allocation.shownAddress = 0

/-- An attempt to release the memory of a page. -/
theorem SignalPage.releaseAllocation_spec (h : page.Intact) :
    (page.releaseAllocation p).Ensures kernel fun result _ =>
      ∃ allocation, result.2 =
          { page with allocation := allocation, attempts := page.attempts + 1 } ∧
        (allocation = page.original ∨ allocation.shownAddress = 0) := by
  refine Ensures.bind releaseMemory_changes ?_
  rintro ⟨status, raw⟩ after hraw
  cases status with
  | some failure =>
    refine ⟨raw, rfl, ?_⟩
    rcases hraw with hsame | hlost
    · obtain rfl : raw = page.allocation := hsame
      exact h
    · exact .inr hlost
  | none => exact ⟨{}, rfl, .inr rfl⟩

/-- What is known of a page at any time. -/
structure SignalPage.Sound (page : SignalPage) : Prop where
  active : page.activeSlots = page.slots.count true
  intact : page.Intact

/-- A slot that has been taken. -/
theorem SignalPage.acquire_spec (h : page.acquire = some (page', slot)) :
    page.allocation.shownAddress ≠ 0 ∧ page.slots[slot]? = some false ∧
      page' = { page with slots := page.slots.set slot true, activeSlots := page.activeSlots + 1 } := by
  unfold SignalPage.acquire at h
  split at h
  · cases h
  · rename_i hmapped
    obtain ⟨index, hindex, heq⟩ := Option.map_eq_some_iff.mp h
    obtain ⟨rfl, rfl⟩ := Prod.mk.inj heq
    obtain ⟨hlt, hfree, -⟩ := List.findIdx?_eq_some_iff_getElem.mp hindex
    refine ⟨fun hzero => hmapped (.inr (.inr hzero)), ?_, rfl⟩
    rw [List.getElem?_eq_getElem hlt]
    simpa using hfree

variable {slots : List Bool}

/-- The slots that are taken, after one has been taken. -/
theorem count_set_true (h : slots[slot]? = some false) :
    (slots.set slot true).count true = slots.count true + 1 := by
  obtain ⟨hlt, hold⟩ := List.getElem?_eq_some_iff.mp h
  simp [List.count_set hlt, hold]

/-- The slots that are taken, after one has been given back. -/
theorem count_set_false (h : slots[slot]? = some true) :
    (slots.set slot false).count true + 1 = slots.count true := by
  obtain ⟨hlt, hold⟩ := List.getElem?_eq_some_iff.mp h
  have hpos : 0 < slots.count true := List.count_pos_iff.mpr (hold ▸ List.getElem_mem hlt)
  simp only [List.count_set hlt, hold]
  simp
  omega

/-- A single slot is the only one. -/
theorem eq_of_count_eq_one {other : ℕ} (hcount : slots.count true = 1)
    (h : slots[slot]? = some true) (hother : slots[other]? = some true) : other = slot := by
  by_contra hne
  have hset := count_set_false h
  have hleft : (slots.set slot false)[other]? = some true := by
    rw [List.getElem?_set_ne (Ne.symm hne), hother]
  have hpos : 0 < (slots.set slot false).count true :=
    List.count_pos_iff.mpr (List.mem_of_getElem? hleft)
  omega

/-- What the release of a signal does to its page: the memory is only touched for the last slot,
and without a failure the slot is free. -/
theorem SignalPage.release_spec (h : page.Sound) (hslot : page.slots[slot]? = some true) :
    (page.release p slot).Ensures kernel fun result _ =>
      result.2.Sound ∧ result.2.original = page.original ∧ result.2.destroyed = page.destroyed ∧
      (∀ other, other ≠ slot → result.2.slots[other]? = page.slots[other]?) ∧
      (result.2.attempts ≠ page.attempts → page.slots.count true = 1) ∧
      (result.1 ≠ none → result.2.slots = page.slots) := by
  have hfree : ∀ {page' : SignalPage}, page'.slots = page.slots →
      page'.activeSlots = page.activeSlots → page'.Intact → (page'.freeSlot slot).Sound := by
    intro page' hslots hactive hintact
    refine ⟨?_, hintact⟩
    have hset := count_set_false hslot
    have hactive' := h.active
    simp only [SignalPage.freeSlot, hslots, hactive]
    omega
  have hothers : ∀ other, other ≠ slot → (page.slots.set slot false)[other]? = page.slots[other]? :=
    fun other hne => List.getElem?_set_ne (Ne.symm hne)
  unfold SignalPage.release
  refine Ensures.ite (fun hnot => absurd hslot hnot) fun _ => Ensures.ite (fun hone => ?_) fun _ => ?_
  · refine Ensures.bind (SignalPage.releaseAllocation_spec h.intact) ?_
    rintro ⟨status, page'⟩ after ⟨raw, hpage', hraw⟩
    obtain rfl : page' = _ := hpage'
    have hlast : page.slots.count true = 1 := h.active.symm.trans hone
    cases status with
    | some failure =>
      exact ⟨⟨h.active, hraw⟩, rfl, rfl, fun _ _ => rfl, fun _ => hlast, fun _ => rfl⟩
    | none =>
      exact ⟨hfree rfl rfl hraw, rfl, rfl, hothers, fun _ => hlast, fun hne => absurd rfl hne⟩
  · exact ⟨hfree rfl rfl h.intact, rfl, rfl, hothers, fun hne => absurd rfl hne,
      fun hne => absurd rfl hne⟩

end Page

/-! ## All pages -/

section System

variable {s s' : Signals} {label : SignalLabel} {t p slot : ℕ} {page page' : SignalPage}

/-- What is known at any time. -/
structure Signals.Sound (s : Signals) : Prop where
  pages : ∀ (p : ℕ) (page : SignalPage), s.pages[p]? = some page → page.Sound
  /-- A signal owns its slot. -/
  owned : ∀ signal ∈ s.signals, ∃ page, s.pages[signal.1]? = some page ∧
    page.slots[signal.2]? = some true ∧ page.destroyed = false
  nodup : s.signals.Nodup
  listed : ∀ p ∈ s.signalPages, p < s.pages.length
  /-- A page that is not yet known to the session is as it was made, and no signal is on it. -/
  publishing : ∀ t p slot : ℕ, s.tasks[t]? = some (.publishing p slot) →
    (∃ page, s.pages[p]? = some page ∧ page.slots[slot]? = some true ∧
      page.destroyed = false ∧ page.allocation = page.original) ∧
    (∀ signal ∈ s.signals, signal.1 ≠ p) ∧
    p ∉ s.signalPages ∧
    ∀ t' slot' : ℕ, s.tasks[t']? = some (.publishing p slot') → t' = t

/-- What a step may do: a signal that is new is on a page that is as it was made, or on a new page;
memory is only touched for the signal that is released, if it is the only one. -/
structure Signals.Allowed (s : Signals) (label : SignalLabel) (s' : Signals) : Prop where
  fresh : ∀ signal ∈ s'.signals, signal ∉ s.signals → ∀ page : SignalPage,
    s.pages[signal.1]? = some page →
    page.allocation = page.original ∧ page.destroyed = false
  alone : ∀ (p : ℕ) (page page' : SignalPage), s.pages[p]? = some page → s'.pages[p]? = some page' →
    page'.attempts ≠ page.attempts → ∀ signal ∈ s.signals, signal.1 = p →
      ∃ kernel, label = .release signal kernel ∨ label = .drop signal kernel
  retried : ∀ (signal : ℕ × ℕ) (kernel : Kernel) (page : SignalPage),
    label = .release signal kernel → s.pages[signal.1]? = some page →
    ((page.release signal.1 signal.2) kernel).1.1 ≠ none → signal ∈ s'.signals

/-- A change of one page that no thread is about to publish. -/
theorem Signals.Sound.change (h : s.Sound) (hp : s.pages[p]? = some page)
    (hknown : ∀ task ∈ s.tasks, task.page ≠ some p) (hsound : page'.Sound)
    (hpages : s'.pages = s.pages.set p page')
    (hsigned : ∀ signal ∈ s'.signals, (signal ∈ s.signals ∧ signal.1 ≠ p) ∨
      (signal.1 = p ∧ page'.slots[signal.2]? = some true ∧ page'.destroyed = false))
    (hnodup : s'.signals.Nodup)
    (htasks : ∀ (t p slot : ℕ), s'.tasks[t]? = some (.publishing p slot) →
      s.tasks[t]? = some (.publishing p slot))
    (hlisted : ∀ p ∈ s'.signalPages, p ∈ s.signalPages) : s'.Sound := by
  have hlt : p < s.pages.length := (List.getElem?_eq_some_iff.mp hp).1
  have hself : s'.pages[p]? = some page' := by rw [hpages, List.getElem?_set_self hlt]
  have hother : ∀ q, q ≠ p → s'.pages[q]? = s.pages[q]? := fun q hne => by
    rw [hpages, List.getElem?_set_ne (Ne.symm hne)]
  refine ⟨fun q other hq => ?_, fun signal hmem => ?_, hnodup, fun q hmem => ?_,
    fun t q slot ht => ?_⟩
  · by_cases heq : q = p
    · subst heq
      obtain rfl := Option.some.inj (hself.symm.trans hq)
      exact hsound
    · exact h.pages q other ((hother q heq).symm.trans hq)
  · rcases hsigned signal hmem with ⟨hold, hne⟩ | ⟨heq, hslot, hlive⟩
    · rw [hother _ hne]
      exact h.owned signal hold
    · exact ⟨page', heq ▸ hself, hslot, hlive⟩
  · rw [hpages, List.length_set]
    exact h.listed q (hlisted q hmem)
  · have ht' := htasks t q slot ht
    have hne : q ≠ p := by
      rintro rfl
      exact hknown _ (List.mem_of_getElem? ht') rfl
    obtain ⟨hpage, hnone, hlist, halone⟩ := h.publishing t q slot ht'
    refine ⟨by rw [hother q hne]; exact hpage, fun signal hmem => ?_,
      fun hmem => hlist (hlisted q hmem), fun t' slot' h' => halone t' slot' (htasks t' q slot' h')⟩
    rcases hsigned signal hmem with ⟨hold, -⟩ | ⟨heq, -⟩
    · exact hnone signal hold
    · exact heq ▸ hne.symm

variable {signal : ℕ × ℕ}

/-- The slot of a signal. -/
theorem Signals.Sound.taken (h : s.Sound) (hmem : signal ∈ s.signals)
    (hp : s.pages[signal.1]? = some page) :
    page.slots[signal.2]? = some true ∧ page.destroyed = false := by
  obtain ⟨page', hp', htaken⟩ := h.owned signal hmem
  obtain rfl := Option.some.inj (hp.symm.trans hp')
  exact htaken

/-- No thread is about to publish a page with a signal. -/
theorem Signals.Sound.known (h : s.Sound) (hmem : signal ∈ s.signals) :
    ∀ task ∈ s.tasks, task.page ≠ some signal.1 := by
  intro task htask hpage
  obtain ⟨t, ht⟩ := List.getElem?_of_mem htask
  cases task with
  | publishing p slot => exact (h.publishing t p slot ht).2.1 signal hmem (Option.some.inj hpage).symm
  | _ => cases hpage

/-- A thread that is not about to publish a page has moved. -/
theorem publishing_of_set {tasks : List SignalTask} {task : SignalTask} (hnone : task.page = none)
    {t' : ℕ} (h : (tasks.set t task)[t']? = some (.publishing p slot)) :
    t' ≠ t ∧ tasks[t']? = some (.publishing p slot) := by
  by_cases heq : t' = t
  · subst heq
    have hmem := List.mem_of_getElem? h
    rw [List.getElem?_set] at h
    simp only [if_true] at h
    split at h
    · obtain rfl := Option.some.inj h
      cases hnone
    · cases h
  · exact ⟨heq, by rwa [List.getElem?_set_ne (Ne.symm heq)] at h⟩

/-- Only threads have moved, and no new page is published. -/
theorem Signals.Sound.move (h : s.Sound) (hpages : s'.pages = s.pages)
    (hsignals : s'.signals = s.signals)
    (htasks : ∀ (t p slot : ℕ), s'.tasks[t]? = some (.publishing p slot) →
      s.tasks[t]? = some (.publishing p slot))
    (hlisted : ∀ p ∈ s'.signalPages, p ∈ s.signalPages) : s'.Sound := by
  refine ⟨hpages ▸ h.pages, hsignals ▸ hpages ▸ h.owned, hsignals ▸ h.nodup,
    fun p hmem => hpages ▸ h.listed p (hlisted p hmem), fun t p slot ht => ?_⟩
  obtain ⟨hpage, hnone, hlist, halone⟩ := h.publishing t p slot (htasks t p slot ht)
  rw [hpages, hsignals]
  exact ⟨hpage, hnone, fun hmem => hlist (hlisted p hmem),
    fun t' slot' h' => halone t' slot' (htasks t' p slot' h')⟩

/-- A page that is the same has not been released. -/
theorem absurd_attempts {C : Prop} (h : some page = some page')
    (hne : page'.attempts ≠ page.attempts) : C :=
  absurd (congrArg SignalPage.attempts (Option.some.inj h).symm) hne

/-- A step without a new signal, a release or a change of a page. -/
theorem Signals.Allowed.of_same (hpages : s'.pages = s.pages) (hsignals : s'.signals = s.signals)
    (hlabel : ∀ signal kernel, label ≠ .release signal kernel) : s.Allowed label s' := by
  refine ⟨fun signal hmem hnot => absurd (hsignals ▸ hmem) hnot, fun p page page' hp hp' hne => ?_,
    fun signal kernel page heq => absurd heq (hlabel signal kernel)⟩
  rw [hpages, hp] at hp'
  exact absurd_attempts hp' hne

/-- A new page with one slot taken, for a signal or for a thread that publishes it. -/
theorem Signals.Sound.newPage (h : s.Sound) (hpage : page.Sound)
    (hslot : page.slots[slot]? = some true) (hlive : page.destroyed = false)
    (horiginal : page.allocation = page.original) {task : SignalTask}
    (hpages : s'.pages = s.pages ++ [page]) (htasks : s'.tasks = s.tasks.set t task)
    (hlisted : s'.signalPages = s.signalPages)
    (howner : (task.page = none ∧ s'.signals = s.signals ++ [(s.pages.length, slot)]) ∨
      (task = .publishing s.pages.length slot ∧ s'.signals = s.signals)) :
    s'.Sound := by
  have hold : ∀ q, q < s.pages.length → s'.pages[q]? = s.pages[q]? := fun q hq => by
    rw [hpages, List.getElem?_append_left hq]
  have hnew : s'.pages[s.pages.length]? = some page := by
    rw [hpages, List.getElem?_append_right le_rfl, Nat.sub_self]
    rfl
  have hsigned : ∀ signal ∈ s.signals, signal.1 < s.pages.length := fun signal hmem =>
    (List.getElem?_eq_some_iff.mp (h.owned signal hmem).choose_spec.1).1
  have hpublished : ∀ {t q slot : ℕ}, s.tasks[t]? = some (.publishing q slot) → q < s.pages.length :=
    fun ht => (List.getElem?_eq_some_iff.mp (h.publishing _ _ _ ht).1.choose_spec.1).1
  -- A thread publishes the new page, or it did before.
  have hcases : ∀ {t' q slot' : ℕ}, s'.tasks[t']? = some (.publishing q slot') →
      (t' = t ∧ q = s.pages.length ∧ slot' = slot ∧ s'.signals = s.signals) ∨
        s.tasks[t']? = some (.publishing q slot') ∧ q < s.pages.length := by
    intro t' q slot' ht
    rw [htasks] at ht
    rcases howner with ⟨hnone, -⟩ | ⟨rfl, hsignals⟩
    · have hbefore := (publishing_of_set hnone ht).2
      exact .inr ⟨hbefore, hpublished hbefore⟩
    · by_cases heq : t' = t
      · subst heq
        rw [List.getElem?_set] at ht
        simp only [if_true] at ht
        split at ht
        · obtain ⟨rfl, rfl⟩ := SignalTask.publishing.inj (Option.some.inj ht)
          exact .inl ⟨rfl, rfl, rfl, hsignals⟩
        · cases ht
      · rw [List.getElem?_set_ne (Ne.symm heq)] at ht
        exact .inr ⟨ht, hpublished ht⟩
  have hsignals : ∀ signal ∈ s'.signals, signal ∈ s.signals ∨ signal = (s.pages.length, slot) := by
    intro signal hmem
    rcases howner with ⟨-, heq⟩ | ⟨-, heq⟩
    · rw [heq, List.mem_append, List.mem_singleton] at hmem
      exact hmem
    · exact .inl (heq ▸ hmem)
  refine ⟨fun q other hq => ?_, fun signal hmem => ?_, ?_, fun q hmem => ?_, fun t' q slot' ht => ?_⟩
  · rw [hpages] at hq
    rcases lt_trichotomy q s.pages.length with hlt | rfl | hgt
    · rw [List.getElem?_append_left hlt] at hq
      exact h.pages q other hq
    · rw [List.getElem?_append_right le_rfl, Nat.sub_self] at hq
      obtain rfl : page = other := Option.some.inj hq
      exact hpage
    · rw [List.getElem?_eq_none (by simp; omega)] at hq
      cases hq
  · rcases hsignals signal hmem with hmem | rfl
    · rw [hold _ (hsigned signal hmem)]
      exact h.owned signal hmem
    · exact ⟨page, hnew, hslot, hlive⟩
  · rcases howner with ⟨-, heq⟩ | ⟨-, heq⟩
    · rw [heq]
      refine List.Nodup.append h.nodup (List.nodup_singleton _) ?_
      exact List.disjoint_singleton.mpr fun hmem => lt_irrefl _ (hsigned _ hmem)
    · exact heq ▸ h.nodup
  · rw [hlisted] at hmem
    rw [hpages, List.length_append]
    exact Nat.lt_add_right _ (h.listed q hmem)
  · rw [hlisted]
    rcases hcases ht with ⟨rfl, rfl, rfl, hsame⟩ | ⟨hbefore, hlt⟩
    · refine ⟨⟨page, hnew, hslot, hlive, horiginal⟩, fun signal hmem => ?_,
        fun hmem => lt_irrefl _ (h.listed _ hmem), fun other slot'' hother => ?_⟩
      · exact (hsigned signal (hsame ▸ hmem)).ne
      · rcases hcases hother with ⟨heq, -⟩ | ⟨-, hlt⟩
        · exact heq
        · exact absurd hlt (lt_irrefl _)
    · obtain ⟨hbeforePage, hnone, hlist, halone⟩ := h.publishing t' q slot' hbefore
      refine ⟨by rw [hold q hlt]; exact hbeforePage, fun signal hmem => ?_, hlist,
        fun other slot'' hother => ?_⟩
      · rcases hsignals signal hmem with hmem | rfl
        · exact hnone signal hmem
        · exact hlt.ne'
      · rcases hcases hother with ⟨-, rfl, -⟩ | ⟨hbefore', -⟩
        · exact absurd hlt (lt_irrefl _)
        · exact halone other slot'' hbefore'

/-- A step that has changed one page, and no memory of it without a reason. -/
theorem Signals.Allowed.of_set (hp : s.pages[p]? = some page)
    (hpages : s'.pages = s.pages.set p page')
    (hfresh : ∀ signal ∈ s'.signals, signal ∉ s.signals → ∀ page : SignalPage,
      s.pages[signal.1]? = some page → page.allocation = page.original ∧ page.destroyed = false)
    (halone : page'.attempts ≠ page.attempts → ∀ signal ∈ s.signals, signal.1 = p →
      ∃ kernel, label = .release signal kernel ∨ label = .drop signal kernel)
    (hretried : ∀ (signal : ℕ × ℕ) (kernel : Kernel) (page : SignalPage),
      label = .release signal kernel → s.pages[signal.1]? = some page →
      ((page.release signal.1 signal.2) kernel).1.1 ≠ none → signal ∈ s'.signals) :
    s.Allowed label s' := by
  refine ⟨hfresh, fun q old new hq hq' hne => ?_, hretried⟩
  rw [hpages] at hq'
  by_cases heq : q = p
  · subst heq
    rw [List.getElem?_set_self (List.getElem?_eq_some_iff.mp hq).1] at hq'
    obtain rfl := Option.some.inj hq'
    obtain rfl := Option.some.inj (hp.symm.trans hq)
    exact halone hne
  · rw [List.getElem?_set_ne (Ne.symm heq), hq] at hq'
    exact absurd_attempts hq' hne

/-- A thread looks at a page. -/
theorem Signals.Sound.look (h : s.Sound) {gpuId index : ℕ} (hp : s.pages[p]? = some page)
    (hlisted : p ∈ s.signalPages) :
    (s.look t gpuId index p page).Sound ∧ s.Allowed (.scan t) (s.look t gpuId index p page) := by
  have hlabel : ∀ signal kernel, SignalLabel.scan t ≠ .release signal kernel := by
    rintro signal kernel ⟨⟩
  have htasks : ∀ {task : SignalTask}, task.page = none → ∀ t' q slot : ℕ,
      (s.tasks.set t task)[t']? = some (.publishing q slot) →
      s.tasks[t']? = some (.publishing q slot) :=
    fun hnone _ _ _ ht => (publishing_of_set hnone ht).2
  unfold Signals.look
  split
  · exact ⟨h.move rfl rfl (fun _ _ _ ht => ht) fun q hmem => List.mem_of_mem_eraseIdx hmem,
      .of_same rfl rfl hlabel⟩
  · rename_i hlive
    split
    · rename_i page' slot hacquire
      obtain ⟨-, hacquire⟩ := Option.ite_none_right_eq_some.mp hacquire
      obtain ⟨hmapped, hfree, rfl⟩ := SignalPage.acquire_spec hacquire
      have hpage := h.pages p page hp
      have hslot : (page.slots.set slot true)[slot]? = some true :=
        List.getElem?_set_self (List.getElem?_eq_some_iff.mp hfree).1
      have hother : ∀ signal ∈ s.signals, signal.1 = p → signal.2 ≠ slot := by
        rintro signal hmem heq rfl
        have htaken := (h.taken hmem (heq ▸ hp)).1
        exact absurd (hfree.symm.trans htaken) (by rintro ⟨⟩)
      have hknown : ∀ task ∈ s.tasks, task.page ≠ some p := by
        intro task htask hpageOf
        obtain ⟨t', ht'⟩ := List.getElem?_of_mem htask
        cases task with
        | publishing q slot' =>
          exact (h.publishing t' q slot' ht').2.2.1 (Option.some.inj hpageOf ▸ hlisted)
        | _ => cases hpageOf
      have hactive : page.activeSlots + 1 = (page.slots.set slot true).count true := by
        rw [count_set_true hfree, hpage.active]
      have hlive : page.destroyed = false := Bool.eq_false_iff.mpr hlive
      have hsound : SignalPage.Sound
          { page with slots := page.slots.set slot true, activeSlots := page.activeSlots + 1 } :=
        ⟨hactive, hpage.intact⟩
      constructor
      · refine h.change hp hknown hsound rfl (fun signal hmem => ?_) ?_
          (htasks rfl) fun _ hmem => hmem
        · rcases List.mem_append.mp hmem with hmem | hmem
          · by_cases heq : signal.1 = p
            · refine .inr ⟨heq, ?_, hlive⟩
              rw [List.getElem?_set_ne (hother signal hmem heq).symm, (h.taken hmem (heq ▸ hp)).1]
            · exact .inl ⟨hmem, heq⟩
          · obtain rfl := List.mem_singleton.mp hmem
            exact .inr ⟨rfl, hslot, hlive⟩
        · refine List.Nodup.append h.nodup (List.nodup_singleton _) ?_
          exact List.disjoint_singleton.mpr fun hmem => hother _ hmem rfl rfl
      · refine .of_set hp rfl (fun signal hmem hnot page' hp' => ?_) (fun hne => absurd rfl hne)
          fun signal kernel _ heq => absurd heq (hlabel signal kernel)
        rcases List.mem_append.mp hmem with hmem | hmem
        · exact absurd hmem hnot
        · obtain rfl := List.mem_singleton.mp hmem
          obtain rfl := Option.some.inj (hp.symm.trans hp')
          exact ⟨hpage.intact.resolve_right hmapped, hlive⟩
    · exact ⟨h.move rfl rfl (htasks rfl) fun _ hmem => hmem, .of_same rfl rfl hlabel⟩

/-- A thread has allocated memory for a new page. -/
theorem Signals.Sound.allocate (h : s.Sound) {gpuId : ℕ} {result : AllocateResult} :
    (s.allocate t gpuId result).Sound ∧
      s.Allowed (.allocate t result) (s.allocate t gpuId result) := by
  have hlabel : ∀ signal kernel, SignalLabel.allocate t result ≠ .release signal kernel := by
    rintro signal kernel ⟨⟩
  have hfailed : ({ s with tasks := s.tasks.set t .idle } : Signals).Sound ∧
      s.Allowed (.allocate t result) { s with tasks := s.tasks.set t .idle } :=
    ⟨h.move rfl rfl (fun _ _ _ ht => (publishing_of_set rfl ht).2) fun _ hmem => hmem,
      .of_same rfl rfl hlabel⟩
  -- A new page, with a signal on it or without.
  have hnew : ∀ {s' : Signals} {page : SignalPage}, s'.pages = s.pages ++ [page] →
      (∀ signal ∈ s'.signals, signal ∉ s.signals → signal.1 = s.pages.length) →
      s.Allowed (.allocate t result) s' := by
    intro s' page hpages hsignals
    refine ⟨fun signal hmem hnot other hother => ?_, fun q old new hq hq' hne => ?_,
      fun signal kernel _ heq => absurd heq (hlabel signal kernel)⟩
    · rw [hsignals signal hmem hnot, List.getElem?_eq_none le_rfl] at hother
      cases hother
    · rw [hpages, List.getElem?_append_left (List.getElem?_eq_some_iff.mp hq).1, hq] at hq'
      exact absurd_attempts hq' hne
  have hretain : (s.retain t { gpuId := gpuId, allocation := result.allocation }).Sound ∧
      s.Allowed (.allocate t result)
        (s.retain t { gpuId := gpuId, allocation := result.allocation }) := by
    have hslots : ((List.replicate 64 false).set 0 true)[0]? = some true := rfl
    have hcount : 1 = ((List.replicate 64 false).set 0 true).count true := by decide
    constructor
    · exact h.newPage ⟨hcount, .inl rfl⟩ hslots rfl rfl rfl rfl rfl (.inl ⟨rfl, rfl⟩)
    · refine hnew rfl fun signal hmem hnot => ?_
      rcases List.mem_append.mp hmem with hmem | hmem
      · exact absurd hmem hnot
      · rw [List.mem_singleton.mp hmem]
  unfold Signals.allocate
  dsimp only
  split
  · split
    · exact hfailed
    · exact hretain
  · split
    · split
      · exact hfailed
      · exact hretain
    · split
      · exact hfailed
      · split
        · exact hfailed
        · rename_i page slot hacquire
          obtain ⟨-, hfree, rfl⟩ := SignalPage.acquire_spec hacquire
          have hset := count_set_true hfree
          have hslot : ((List.replicate 64 false).set slot true)[slot]? = some true :=
            List.getElem?_set_self (List.getElem?_eq_some_iff.mp hfree).1
          rw [List.count_replicate, if_neg (by decide)] at hset
          exact ⟨h.newPage ⟨hset.symm, .inl rfl⟩ hslot rfl rfl rfl rfl rfl (.inr ⟨rfl, rfl⟩),
            hnew rfl fun signal hmem hnot => absurd hmem hnot⟩

/-- A thread has told the session of its page. -/
theorem Signals.Sound.publish (h : s.Sound) (ht : s.tasks[t]? = some (.publishing p slot))
    {noMemory : Bool} (hpages : s'.pages = s.pages) (htasks : s'.tasks = s.tasks.set t .idle)
    (hlisted : s'.signalPages = s.signalPages ++ [p])
    (hsignals : s'.signals = s.signals ++ [(p, slot)]) :
    s'.Sound ∧ s.Allowed (.publish t noMemory) s' := by
  obtain ⟨⟨page, hp, hslot, hlive, horiginal⟩, hnone, hlist, halone⟩ := h.publishing t p slot ht
  have hlt : p < s.pages.length := (List.getElem?_eq_some_iff.mp hp).1
  constructor
  · refine ⟨hpages ▸ h.pages, fun signal hmem => ?_, ?_, fun q hmem => ?_, fun t' q slot' ht' => ?_⟩
    · rw [hsignals, List.mem_append, List.mem_singleton] at hmem
      rw [hpages]
      rcases hmem with hmem | rfl
      · exact h.owned signal hmem
      · exact ⟨page, hp, hslot, hlive⟩
    · rw [hsignals]
      refine List.Nodup.append h.nodup (List.nodup_singleton _) ?_
      exact List.disjoint_singleton.mpr fun hmem => hnone _ hmem rfl
    · rw [hlisted, List.mem_append, List.mem_singleton] at hmem
      rw [hpages]
      rcases hmem with hmem | rfl
      · exact h.listed q hmem
      · exact hlt
    · rw [htasks] at ht'
      obtain ⟨hne, hbefore⟩ := publishing_of_set rfl ht'
      have hqp : q ≠ p := by
        rintro rfl
        exact hne (halone t' slot' hbefore)
      obtain ⟨hpage, hfree, hnot, hother⟩ := h.publishing t' q slot' hbefore
      rw [hpages, hsignals, hlisted, htasks]
      refine ⟨hpage, fun signal hmem => ?_, fun hmem => ?_, fun t'' slot'' ht'' => ?_⟩
      · rcases List.mem_append.mp hmem with hmem | hmem
        · exact hfree signal hmem
        · rw [List.mem_singleton.mp hmem]
          exact hqp.symm
      · rcases List.mem_append.mp hmem with hmem | hmem
        · exact hnot hmem
        · exact hqp (List.mem_singleton.mp hmem)
      · exact hother t'' slot'' (publishing_of_set rfl ht'').2
  · refine ⟨fun signal hmem hnot other hother => ?_, fun q old new hq hq' hne => ?_,
      by rintro signal kernel page ⟨⟩⟩
    · rw [hsignals, List.mem_append, List.mem_singleton] at hmem
      obtain rfl := hmem.resolve_left hnot
      obtain rfl := Option.some.inj (hp.symm.trans hother)
      exact ⟨horiginal, hlive⟩
    · rw [hpages, hq] at hq'
      exact absurd_attempts hq' hne

/-- A signal is released, or destroyed. -/
theorem Signals.Sound.release (h : s.Sound) {drop : Bool} {kernel : Kernel}
    (hmem : signal ∈ s.signals) (hp : s.pages[signal.1]? = some page)
    (hlabel : label = if drop then .drop signal kernel else .release signal kernel) :
    (s.release signal drop kernel page).Sound ∧
      s.Allowed label (s.release signal drop kernel page) := by
  obtain ⟨hslot, hlive⟩ := h.taken hmem hp
  obtain ⟨hsound, -, hdestroyed, hothers, hlast, hfailed⟩ :=
    SignalPage.release_spec (h.pages _ page hp) hslot
  have hsub : ∀ other ∈ (s.release signal drop kernel page).signals, other ∈ s.signals := by
    intro other hother
    simp only [Signals.release] at hother
    split at hother
    · exact List.mem_of_mem_erase hother
    · exact hother
  constructor
  · refine h.change hp (h.known hmem) hsound rfl (fun other hother => ?_) ?_ (fun _ _ _ ht => ht)
      fun _ hlisted => hlisted
    · have hbefore := hsub other hother
      by_cases heq : other.1 = signal.1
      · refine .inr ⟨heq, ?_, hdestroyed.trans hlive⟩
        by_cases hsame : other.2 = signal.2
        · obtain rfl : other = signal := Prod.ext heq hsame
          simp only [Signals.release] at hother
          split at hother
          · exact absurd hother h.nodup.not_mem_erase
          · rename_i hkept
            rw [hfailed fun hnone => hkept (.inr hnone)]
            exact hslot
        · rw [hothers other.2 hsame]
          exact (h.taken hbefore (heq ▸ hp)).1
      · exact .inl ⟨hbefore, heq⟩
    · simp only [Signals.release]
      split
      · exact h.nodup.erase signal
      · exact h.nodup
  · refine .of_set hp rfl (fun other hother hnot => absurd (hsub other hother) hnot)
      (fun hne other hother heq => ?_) fun other kernel' page' hrelease hpage' hstatus => ?_
    · have htaken := (h.taken hother (heq ▸ hp)).1
      obtain rfl : other = signal := Prod.ext heq (eq_of_count_eq_one (hlast hne) hslot htaken)
      cases drop with
      | true => exact ⟨kernel, .inr hlabel⟩
      | false => exact ⟨kernel, .inl hlabel⟩
    · rw [hrelease] at hlabel
      cases drop with
      | true => cases hlabel
      | false =>
        obtain ⟨rfl, rfl⟩ := SignalLabel.release.inj hlabel
        obtain rfl := Option.some.inj (hp.symm.trans hpage')
        simp only [Signals.release, Bool.false_eq_true, false_or, if_neg hstatus]
        exact hmem

/-- A page is destroyed. -/
theorem Signals.Sound.destroyPage (h : s.Sound) {kernel : Kernel} (hp : s.pages[p]? = some page)
    (hfree : ∀ signal ∈ s.signals, signal.1 ≠ p) (hknown : ∀ task ∈ s.tasks, task.page ≠ some p) :
    ({ s with pages := s.pages.set p (page.destroy p kernel) } : Signals).Sound ∧
      s.Allowed (.destroyPage p kernel) { s with pages := s.pages.set p (page.destroy p kernel) } := by
  have hpage := h.pages p page hp
  have hsound : (page.destroy p kernel).Sound := by
    have hspec : (page.releaseAllocation p).Ensures kernel _ :=
      SignalPage.releaseAllocation_spec hpage.intact
    obtain ⟨raw, hresult, hraw⟩ := hspec
    rw [SignalPage.destroy, hresult]
    exact ⟨hpage.active, hraw⟩
  refine ⟨h.change hp hknown hsound rfl (fun signal hmem => .inl ⟨hmem, hfree signal hmem⟩) h.nodup
    (fun _ _ _ ht => ht) fun _ hmem => hmem, ?_⟩
  exact .of_set hp rfl (fun signal hmem hnot => absurd hmem hnot)
    (fun _ signal hmem heq => absurd heq (hfree signal hmem)) (by rintro signal kernel page ⟨⟩)

/-- A step keeps the invariant and does what it may. -/
theorem Signals.Sound.step (h : s.Sound) (hstep : s.step label = some s') :
    s'.Sound ∧ s.Allowed label s' := by
  have hmove : ∀ {s' : Signals} {t : ℕ} {task : SignalTask}, task.page = none →
      s'.pages = s.pages → s'.signals = s.signals → s'.signalPages = s.signalPages →
      s'.tasks = s.tasks.set t task → s'.Sound := by
    intro s' t task hnone hpages hsignals hlisted htasks
    refine h.move hpages hsignals (fun t' p slot ht => ?_) fun p hmem => hlisted ▸ hmem
    rw [htasks] at ht
    exact (publishing_of_set hnone ht).2
  cases label with
  | create t gpuId =>
    obtain ⟨-, rfl⟩ := Run.of_guard hstep
    exact ⟨hmove rfl rfl rfl rfl rfl, .of_same rfl rfl (by rintro _ _ ⟨⟩)⟩
  | scan t =>
    simp only [Signals.step] at hstep
    split at hstep
    · split at hstep
      · obtain rfl := Option.some.inj hstep
        exact ⟨hmove rfl rfl rfl rfl rfl, .of_same rfl rfl (by rintro _ _ ⟨⟩)⟩
      · rename_i p hlisted
        obtain ⟨page, hp, rfl⟩ := Option.map_eq_some_iff.mp hstep
        exact h.look hp (List.mem_of_getElem? hlisted)
    · cases hstep
  | allocate t result =>
    simp only [Signals.step] at hstep
    split at hstep
    · obtain rfl := Option.some.inj hstep
      exact h.allocate
    · cases hstep
  | publish t noMemory =>
    simp only [Signals.step] at hstep
    split at hstep
    · rename_i p slot ht
      split at hstep
      · cases hstep
      · split at hstep
        · obtain rfl := Option.some.inj hstep
          exact ⟨hmove rfl rfl rfl rfl rfl, .of_same rfl rfl (by rintro _ _ ⟨⟩)⟩
        · obtain rfl := Option.some.inj hstep
          exact h.publish ht rfl rfl rfl rfl
    · cases hstep
  | release signal kernel =>
    obtain ⟨hmem, hstep⟩ := Option.ite_none_right_eq_some.mp hstep
    obtain ⟨page, hp, rfl⟩ := Option.map_eq_some_iff.mp hstep
    exact h.release hmem hp rfl
  | drop signal kernel =>
    obtain ⟨hmem, hstep⟩ := Option.ite_none_right_eq_some.mp hstep
    obtain ⟨page, hp, rfl⟩ := Option.map_eq_some_iff.mp hstep
    exact h.release hmem hp rfl
  | destroyPage p kernel =>
    obtain ⟨⟨hfree, hknown⟩, hstep⟩ := Option.ite_none_right_eq_some.mp hstep
    obtain ⟨page, hp, rfl⟩ := Option.map_eq_some_iff.mp hstep
    exact h.destroyPage hp hfree hknown

/-- Nothing has been created. -/
theorem Signals.Sound.init (threads : ℕ) : (Signals.init threads).Sound := by
  refine ⟨fun p page hp => ?_, fun signal hmem => ?_, List.nodup_nil, fun p hmem => ?_,
    fun t p slot ht => ?_⟩
  · simp [Signals.init] at hp
  · simp [Signals.init] at hmem
  · simp [Signals.init] at hmem
  · have hidle := (List.mem_replicate.mp (List.mem_of_getElem? ht)).2
    cases hidle

/-- However threads create and release signals and whatever becomes of the memory of the pages, no
two signals share a slot, the memory of a page is only released for the one signal that is
left on it, a page of whose memory a part has been released gets no new signal, and a signal whose
release fails keeps its slot, so that the release can be tried again. -/
theorem signals_own_slots {threads : ℕ} {labels : List SignalLabel}
    (hrun : Run.Steps Signals.step (fun _ _ => True) (Signals.init threads) labels s) :
    s.signals.Nodup ∧
    (∀ signal ∈ s.signals, ∃ page, s.pages[signal.1]? = some page ∧
      page.slots[signal.2]? = some true ∧ page.destroyed = false) ∧
    ∀ label s', s.step label = some s' →
      (∀ (p : ℕ) (page page' : SignalPage), s.pages[p]? = some page → s'.pages[p]? = some page' →
        page'.attempts ≠ page.attempts → ∀ signal ∈ s.signals, signal.1 = p →
          ∃ kernel, label = .release signal kernel ∨ label = .drop signal kernel) ∧
      (∀ signal ∈ s'.signals, signal ∉ s.signals → ∀ page : SignalPage,
        s.pages[signal.1]? = some page → page.allocation = page.original) ∧
      ∀ (signal : ℕ × ℕ) (kernel : Kernel) (page : SignalPage), label = .release signal kernel →
        s.pages[signal.1]? = some page → ((page.release signal.1 signal.2) kernel).1.1 ≠ none →
        signal ∈ s'.signals ∧ ∀ kernel', ∃ s'', s'.step (.release signal kernel') = some s'' := by
  have hsound : s.Sound := hrun.invariant (fun _ _ _ h _ hstep => (h.step hstep).1) (.init threads)
  refine ⟨hsound.nodup, hsound.owned, fun label s' hstep => ?_⟩
  obtain ⟨hsound', hallowed⟩ := hsound.step hstep
  refine ⟨hallowed.alone, fun signal hmem hnot page hp => (hallowed.fresh signal hmem hnot page hp).1,
    fun signal kernel page hlabel hp hstatus => ?_⟩
  have hmem := hallowed.retried signal kernel page hlabel hp hstatus
  obtain ⟨page', hp', -⟩ := hsound'.owned signal hmem
  refine ⟨hmem, fun kernel' => ⟨s'.release signal false kernel' page', ?_⟩⟩
  simp only [Signals.step, if_pos hmem, hp', Option.map_some]

end System

/-- A kernel that answers as told. -/
def answering (answers : List Answer) : Kernel := ⟨[], [], [], [], 1, 1, 1, [], answers⟩

/-- A page of memory that is mapped on one device. -/
def mappedPage : RawMemoryAllocation where
  reservationAddress := some 4096
  reservationSize := 4096
  hostAddress := some 4096
  gpuAddress := 4096
  size := 4096
  handle := 1
  gpuIds := [1]
  mappedDeviceCount := 1
  mapComplete := true

/-- A thread creates a signal on a new page. -/
def createOne : List SignalLabel :=
  [.create 0 1, .scan 0, .allocate 0 ⟨true, mappedPage, false⟩, .publish 0 false]

/-- The release of the memory fails at its last step, and the next signal gets a page of its own. -/
theorem released_page_not_used : ∃ s : Signals,
    Run.Steps Signals.step (fun _ _ => True) (Signals.init 1)
      (createOne ++ [.release (0, 0) (answering [{}, {}, { ok := false }]), .create 0 1, .scan 0,
        .scan 0, .allocate 0 ⟨true, mappedPage, false⟩, .publish 0 false]) s ∧
      s.signals = [(0, 0), (1, 0)] ∧ s.signals.Nodup := by
  obtain ⟨s, hexec, hend⟩ : ∃ s : Signals, Run.exec Signals.step
      (createOne ++ [.release (0, 0) (answering [{}, {}, { ok := false }]), .create 0 1, .scan 0,
        .scan 0, .allocate 0 ⟨true, mappedPage, false⟩, .publish 0 false]) (Signals.init 1) =
        some s ∧ s.signals = [(0, 0), (1, 0)] :=
    Run.exists_of_exec (by decide +kernel)
  exact ⟨s, Run.Steps.of_exec hexec, hend, (signals_own_slots (Run.Steps.of_exec hexec)).1⟩

/-- The release of the memory fails before anything is unmapped, and the page, whose release has
been attempted, gets a new signal. -/
theorem attempted_page_used : ∃ s : Signals,
    Run.exec Signals.step
      (createOne ++ [.release (0, 0) (answering [{ ok := false, progress := some 0 }]),
        .create 0 1, .scan 0]) (Signals.init 1) = some s ∧
      s.signals = [(0, 0), (0, 1)] ∧ s.pages.map SignalPage.attempts = [1] :=
  Run.exists_of_exec (by decide +kernel)

end LightRocm.Transport
