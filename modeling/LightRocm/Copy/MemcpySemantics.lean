import LightRocm.Copy.Memcpy

/-!
# Synchronous copies have the semantics of memmove

A chunk moves the bytes of its own part of the range and touches nothing else
but the staging buffer. The parts are joined from the front or from the back,
whichever order reads every source byte before it is overwritten.
-/

namespace LightRocm.Copy

/-- A launch of the copy kernel stored every byte of its range once. -/
def Launch.WritesOnce (launch : Launch) : Prop :=
  ∀ o, launch.written.count o = if o < launch.size then 1 else 0

/-- A range of one memory that stays clear of the staging buffer and of the end
of the address space. -/
structure Heap.Clear (heap : Heap) (space : Space) (base size : ℕ) : Prop where
  /-- Device addresses of the range do not wrap. -/
  bounded : space = .device → base + size < 2 ^ 64
  /-- The range lies on one side of the staging buffer. -/
  apart : space = .device → base + size ≤ heap.stagingGpu ∨
    heap.stagingGpu + heap.stagingSize ≤ base

/-- The address belongs to the staging buffer. -/
def Heap.Staged (heap : Heap) (space : Space) (a : ℕ) : Prop :=
  space = .device ∧ heap.stagingGpu ≤ a ∧ a < heap.stagingGpu + heap.stagingSize

/-- The bytes `lo` to `hi` of the range have been moved, and nothing outside
them and the staging buffer has changed. -/
structure Heap.Moves (heap : Heap) (kind : MemcpyKind) (dst src lo hi : ℕ)
    (before after : Memory) : Prop where
  /-- The destination holds the old source. -/
  copied : ∀ i, lo ≤ i → i < hi →
    after.bytes (destinationSpace kind) (dst + i) = before.bytes (sourceSpace kind) (src + i)
  /-- No other byte has changed. -/
  frame : ∀ space a, ¬ (space = destinationSpace kind ∧ dst + lo ≤ a ∧ a < dst + hi) →
    ¬ heap.Staged space a → after.bytes space a = before.bytes space a
  /-- Every new launch stored each byte of its range once. -/
  launches : ∀ launch ∈ after.launches, launch ∈ before.launches ∨ launch.WritesOnce

/-- Moving no byte at all. -/
theorem Heap.Moves.refl (heap : Heap) (kind : MemcpyKind) (dst src lo : ℕ) (memory : Memory) :
    heap.Moves kind dst src lo lo memory memory where
  copied := fun i hlo hhi => absurd hhi (by omega)
  frame := fun _ _ _ _ => rfl
  launches := fun _ hlaunch => Or.inl hlaunch

section Join

variable {heap : Heap} {kind : MemcpyKind} {dst src lo mid hi : ℕ} {before between after : Memory}

private theorem launches_join
    (hfirst : ∀ launch ∈ between.launches, launch ∈ before.launches ∨ launch.WritesOnce)
    (hsecond : ∀ launch ∈ after.launches, launch ∈ between.launches ∨ launch.WritesOnce) :
    ∀ launch ∈ after.launches, launch ∈ before.launches ∨ launch.WritesOnce := by
  intro launch hlaunch
  rcases hsecond launch hlaunch with hold | honce
  · exact hfirst launch hold
  · exact Or.inr honce

/-- Two adjacent parts, the front one moved first. The bytes the second part
reads are not among those the first has written. -/
theorem Heap.Moves.join_front (hlo : lo ≤ mid) (hhi : mid ≤ hi)
    (hfirst : heap.Moves kind dst src lo mid before between)
    (hsecond : heap.Moves kind dst src mid hi between after)
    (hdst : ∀ i < hi, ¬ heap.Staged (destinationSpace kind) (dst + i))
    (hsrc : ∀ i < hi, ¬ heap.Staged (sourceSpace kind) (src + i))
    (hunread : sourceSpace kind = destinationSpace kind → dst ≤ src) :
    heap.Moves kind dst src lo hi before after where
  copied := by
    intro i hi₁ hi₂
    by_cases hmid : i < mid
    · rw [hsecond.frame _ _ (by omega) (hdst i hi₂)]
      exact hfirst.copied i hi₁ hmid
    · rw [hsecond.copied i (by omega) hi₂]
      apply hfirst.frame _ _ _ (hsrc i hi₂)
      rintro ⟨hspace, -, hlt⟩
      have := hunread hspace
      omega
  frame := by
    intro space a hout hstaged
    rw [hsecond.frame space a (fun h => hout ⟨h.1, by omega, h.2.2⟩) hstaged]
    exact hfirst.frame space a (fun h => hout ⟨h.1, h.2.1, by omega⟩) hstaged
  launches := launches_join hfirst.launches hsecond.launches

/-- Two adjacent parts, the back one moved first. -/
theorem Heap.Moves.join_back (hlo : lo ≤ mid) (hhi : mid ≤ hi)
    (hfirst : heap.Moves kind dst src mid hi before between)
    (hsecond : heap.Moves kind dst src lo mid between after)
    (hdst : ∀ i < hi, ¬ heap.Staged (destinationSpace kind) (dst + i))
    (hsrc : ∀ i < hi, ¬ heap.Staged (sourceSpace kind) (src + i))
    (hunread : sourceSpace kind = destinationSpace kind → src ≤ dst) :
    heap.Moves kind dst src lo hi before after where
  copied := by
    intro i hi₁ hi₂
    by_cases hmid : i < mid
    · rw [hsecond.copied i hi₁ hmid]
      apply hfirst.frame _ _ _ (hsrc i hi₂)
      rintro ⟨hspace, hge, -⟩
      have := hunread hspace
      omega
    · rw [hsecond.frame _ _ (by omega) (hdst i hi₂)]
      exact hfirst.copied i (by omega) hi₂
  frame := by
    intro space a hout hstaged
    rw [hsecond.frame space a (fun h => hout ⟨h.1, h.2.1, by omega⟩) hstaged]
    exact hfirst.frame space a (fun h => hout ⟨h.1, by omega, h.2.2⟩) hstaged
  launches := launches_join hfirst.launches hsecond.launches

end Join

/-- A dispatch has copied a device range. -/
structure DeviceCopied (destination source size : ℕ) (before after : Memory) : Prop where
  /-- The destination holds the old source. -/
  copied : ∀ i < size, after.bytes .device (destination + i) = before.bytes .device (source + i)
  /-- No other device byte has changed. -/
  frame : ∀ a, ¬ (destination ≤ a ∧ a < destination + size) →
    after.bytes .device a = before.bytes .device a
  /-- The device writes no host memory. -/
  host : ∀ a, after.bytes .host a = before.bytes .host a
  /-- The kernel stored each byte of its range once. -/
  launches : ∀ launch ∈ after.launches, launch ∈ before.launches ∨ launch.WritesOnce

/-- A successful copy dispatch between disjoint ranges has copied them. -/
theorem submitDirectKfdCopyLocked_copied {submissions : ℕ → Submission} {memory : Memory}
    {destination source size : ℕ} (hsource : source + size < 2 ^ 64)
    (hdestination : destination + size < 2 ^ 64)
    (hapart : ∀ i < size, ∀ j < size, source + i ≠ destination + j)
    (hsuccess : (submitDirectKfdCopyLocked submissions memory destination source size).1 =
      .success) :
    DeviceCopied destination source size memory
      (submitDirectKfdCopyLocked submissions memory destination source size).2 := by
  have hroom := size_add_stride_le hsource hdestination hapart
  unfold submitDirectKfdCopyLocked at hsuccess ⊢
  by_cases hzero : size = 0
  · rw [if_pos hzero] at hsuccess
    cases hsuccess
  rw [if_neg hzero] at hsuccess ⊢
  by_cases hsubmit : (submissions memory.launches.length).submitStatus ≠ .success
  · simp only [if_pos hsubmit] at hsuccess
    exact absurd hsuccess hsubmit
  simp only [if_neg hsubmit] at hsuccess ⊢
  have hprogress := lrrtCopyBytes_progress hapart hroom
    (submissions memory.launches.length).order (memory.bytes .device)
  have hfinished := (finished_iff hapart _).mp (by
    by_contra hnot
    rw [if_neg hnot] at hsuccess
    cases hsuccess)
  constructor
  · intro i hi
    exact hprogress.copied_of_finished hfinished hi
  · intro a ha
    exact hprogress.frame a fun o (ho : o < size) heq => ha (by
      have : a = destination + o := heq
      omega)
  · intro a
    rfl
  · intro launch hlaunch
    rcases List.mem_append.mp hlaunch with hold | hnew
    · exact Or.inl hold
    · rw [List.mem_singleton] at hnew
      subst hnew
      exact Or.inr fun o => hprogress.once_of_finished hfinished o

/-- A chunk copy that moves its own part of the range whenever it succeeds. -/
def Heap.MovesChunk (heap : Heap) (kind : MemcpyKind) (dst src size : ℕ)
    (copyChunk : ℕ → ℕ → Memory → Status × Memory) : Prop :=
  ∀ offset chunk memory, 0 < chunk → chunk ≤ heap.stagingSize → offset + chunk ≤ size →
    (copyChunk offset chunk memory).1 = .success →
    heap.Moves kind dst src offset (offset + chunk) memory (copyChunk offset chunk memory).2

section Loops

variable {heap : Heap} {kind : MemcpyKind} {dst src size : ℕ}
  {copyChunk : ℕ → ℕ → Memory → Status × Memory}

/-- The forward chunk loop returns, and moves what is left of the range if it succeeds. -/
theorem forwardChunks_moves (hchunk : heap.MovesChunk kind dst src size copyChunk)
    (hdst : ∀ i < size, ¬ heap.Staged (destinationSpace kind) (dst + i))
    (hsrc : ∀ i < size, ¬ heap.Staged (sourceSpace kind) (src + i))
    (hunread : sourceSpace kind = destinationSpace kind → dst ≤ src)
    (fuel offset : ℕ) (memory : Memory) (hoffset : offset ≤ size) (hfuel : size - offset ≤ fuel) :
    ∃ result, forwardChunks heap.stagingSize size copyChunk fuel offset memory = some result ∧
      (result.1 = .success → heap.Moves kind dst src offset size memory result.2) := by
  induction fuel generalizing offset memory with
  | zero =>
    have heq : offset = size := by omega
    subst heq
    refine ⟨(.success, memory), ?_, fun _ => .refl ..⟩
    simp [forwardChunks]
  | succ fuel ih =>
    unfold forwardChunks
    by_cases hdone : size ≤ offset
    · have heq : offset = size := by omega
      subst heq
      exact ⟨(.success, memory), by simp, fun _ => .refl ..⟩
    · rw [if_neg hdone]
      have hpos := heap.staging_pos
      have hchunkpos : 0 < min (size - offset) heap.stagingSize := by omega
      by_cases hstatus : (copyChunk offset (min (size - offset) heap.stagingSize) memory).1 =
          .success
      · have hfirst := hchunk offset _ memory hchunkpos (by omega) (by omega) hstatus
        obtain ⟨result, hrun, hmoves⟩ :=
          ih (offset + min (size - offset) heap.stagingSize) _ (by omega) (by omega)
        refine ⟨result, ?_, fun hsuccess => ?_⟩
        · simpa only [if_pos hstatus] using hrun
        · exact hfirst.join_front (by omega) (by omega) (hmoves hsuccess) hdst hsrc hunread
      · exact ⟨_, by simp only [if_neg hstatus], fun hsuccess => absurd hsuccess hstatus⟩

/-- The backward chunk loop returns, and moves what is left of the range if it succeeds. -/
theorem backwardChunks_moves (hchunk : heap.MovesChunk kind dst src size copyChunk)
    (hdst : ∀ i < size, ¬ heap.Staged (destinationSpace kind) (dst + i))
    (hsrc : ∀ i < size, ¬ heap.Staged (sourceSpace kind) (src + i))
    (hunread : sourceSpace kind = destinationSpace kind → src ≤ dst)
    (fuel remaining : ℕ) (memory : Memory) (hremaining : remaining ≤ size)
    (hfuel : remaining ≤ fuel) :
    ∃ result, backwardChunks heap.stagingSize copyChunk fuel remaining memory = some result ∧
      (result.1 = .success → heap.Moves kind dst src 0 remaining memory result.2) := by
  induction fuel generalizing remaining memory with
  | zero =>
    have heq : remaining = 0 := by omega
    subst heq
    exact ⟨(.success, memory), by simp [backwardChunks], fun _ => .refl ..⟩
  | succ fuel ih =>
    unfold backwardChunks
    by_cases hdone : remaining = 0
    · subst hdone
      exact ⟨(.success, memory), by simp, fun _ => .refl ..⟩
    · rw [if_neg hdone]
      have hpos := heap.staging_pos
      have hchunkpos : 0 < min remaining heap.stagingSize := by omega
      by_cases hstatus : (copyChunk (remaining - min remaining heap.stagingSize)
          (min remaining heap.stagingSize) memory).1 = .success
      · have hfirst := hchunk _ _ memory hchunkpos (by omega) (by omega) hstatus
        rw [Nat.sub_add_cancel (by omega)] at hfirst
        obtain ⟨result, hrun, hmoves⟩ :=
          ih (remaining - min remaining heap.stagingSize) _ (by omega) (by omega)
        refine ⟨result, ?_, fun hsuccess => ?_⟩
        · simpa only [if_pos hstatus] using hrun
        · exact hfirst.join_back (by omega) (by omega) (hmoves hsuccess)
            (fun i hi => hdst i (by omega)) (fun i hi => hsrc i (by omega)) hunread
      · exact ⟨_, by simp only [if_neg hstatus], fun hsuccess => absurd hsuccess hstatus⟩

end Loops

section Chunks

variable {heap : Heap} {submissions : ℕ → Submission} {dst src size : ℕ}

/-- The staging buffer and a clear device range do not meet. -/
private theorem staging_ne {base chunk offset : ℕ} (hclear : heap.Clear .device base size)
    (hchunk : chunk ≤ heap.stagingSize) (hoffset : offset + chunk ≤ size) :
    ∀ i < chunk, ∀ j < chunk, heap.stagingGpu + i ≠ base + offset + j := by
  have := hclear.apart rfl
  intro i hi j hj
  omega

/-- A host-to-device chunk moves its part of the range. -/
theorem hostToDeviceChunk_moves (hdst : heap.Clear .device dst size) :
    heap.MovesChunk .hostToDevice dst src size (heap.hostToDeviceChunk submissions dst src) := by
  intro offset chunk memory hpos hchunk hoffset hsuccess
  have hbound := hdst.bounded rfl
  have hstaging := heap.staging_lt
  have hwrap : u64 (dst + offset) = dst + offset := u64_of_lt (by omega)
  unfold Heap.hostToDeviceChunk at hsuccess ⊢
  rw [hwrap] at hsuccess ⊢
  have hcopied := submitDirectKfdCopyLocked_copied (by omega) (by omega)
    (staging_ne hdst hchunk hoffset) hsuccess
  constructor
  · intro i hlo hhi
    have := hcopied.copied (i - offset) (by omega)
    rw [show dst + offset + (i - offset) = dst + i by omega] at this
    rw [show destinationSpace .hostToDevice = .device from rfl, this]
    simp only [hostMemcpy, true_and]
    rw [if_pos (by omega)]
    congr 1
    omega
  · intro space a hout hstaged
    cases space with
    | host => exact hcopied.host a
    | device =>
      rw [hcopied.frame a (fun h => hout ⟨rfl, by omega⟩)]
      simp only [hostMemcpy, true_and]
      rw [if_neg (fun h => hstaged ⟨rfl, by omega⟩)]
  · exact hcopied.launches

/-- A device-to-host chunk moves its part of the range. -/
theorem deviceToHostChunk_moves (hsrc : heap.Clear .device src size) :
    heap.MovesChunk .deviceToHost dst src size (heap.deviceToHostChunk submissions dst src) := by
  intro offset chunk memory hpos hchunk hoffset hsuccess
  have hbound := hsrc.bounded rfl
  have hstaging := heap.staging_lt
  have hwrap : u64 (src + offset) = src + offset := u64_of_lt (by omega)
  unfold Heap.deviceToHostChunk at hsuccess ⊢
  rw [hwrap] at hsuccess ⊢
  have hsubmit : (submitDirectKfdCopyLocked submissions memory heap.stagingGpu (src + offset)
      chunk).1 = .success := by
    by_contra hnot
    simp only [if_neg hnot] at hsuccess
    exact hnot hsuccess
  simp only [if_pos hsubmit]
  have hcopied := submitDirectKfdCopyLocked_copied (by omega) (by omega)
    (fun i hi j hj heq => staging_ne hsrc hchunk hoffset j hj i hi heq.symm) hsubmit
  constructor
  · intro i hlo hhi
    have := hcopied.copied (i - offset) (by omega)
    rw [show src + offset + (i - offset) = src + i by omega] at this
    rw [show sourceSpace .deviceToHost = .device from rfl, ← this]
    simp only [hostMemcpy, destinationSpace, true_and]
    rw [if_pos (by omega)]
    congr 1
    omega
  · intro space a hout hstaged
    cases space with
    | host =>
      simp only [hostMemcpy, true_and]
      rw [if_neg (fun h => hout ⟨rfl, by omega⟩)]
      exact hcopied.host a
    | device =>
      simp only [hostMemcpy, reduceCtorEq, false_and, if_false]
      exact hcopied.frame a fun h => hstaged ⟨rfl, by omega⟩
  · exact hcopied.launches

/-- A chunk of a copy between overlapping device ranges moves its part. -/
theorem overlappingChunk_moves (hdst : heap.Clear .device dst size)
    (hsrc : heap.Clear .device src size) :
    heap.MovesChunk .deviceToDevice dst src size (heap.overlappingChunk submissions dst src) := by
  intro offset chunk memory hpos hchunk hoffset hsuccess
  have hdstbound := hdst.bounded rfl
  have hsrcbound := hsrc.bounded rfl
  have hdstapart := hdst.apart rfl
  have hstaging := heap.staging_lt
  have hdstwrap : u64 (dst + offset) = dst + offset := u64_of_lt (by omega)
  have hsrcwrap : u64 (src + offset) = src + offset := u64_of_lt (by omega)
  unfold Heap.overlappingChunk at hsuccess ⊢
  rw [hdstwrap, hsrcwrap] at hsuccess ⊢
  have hsubmit : (submitDirectKfdCopyLocked submissions memory heap.stagingGpu (src + offset)
      chunk).1 = .success := by
    by_contra hnot
    simp only [if_neg hnot] at hsuccess
    exact hnot hsuccess
  simp only [if_pos hsubmit] at hsuccess ⊢
  have hin := submitDirectKfdCopyLocked_copied (by omega) (by omega)
    (fun i hi j hj heq => staging_ne hsrc hchunk hoffset j hj i hi heq.symm) hsubmit
  have hout := submitDirectKfdCopyLocked_copied (by omega) (by omega)
    (staging_ne hdst hchunk hoffset) hsuccess
  constructor
  · intro i hlo hhi
    have hread := hin.copied (i - offset) (by omega)
    have hwrite := hout.copied (i - offset) (by omega)
    rw [show dst + offset + (i - offset) = dst + i by omega] at hwrite
    rw [show src + offset + (i - offset) = src + i by omega] at hread
    exact hwrite.trans hread
  · intro space a hrange hstaged
    cases space with
    | host => exact (hout.host a).trans (hin.host a)
    | device =>
      rw [hout.frame a (fun h => hrange ⟨rfl, by omega⟩)]
      exact hin.frame a fun h => hstaged ⟨rfl, by omega⟩
  · exact launches_join hin.launches hout.launches

end Chunks

/-- The copy loops return, and move the whole range if they succeed. -/
theorem copyRanges_moves {heap : Heap} {kind : MemcpyKind} {dst src size : ℕ}
    (submissions : ℕ → Submission) (memory : Memory)
    (hdst : heap.Clear (destinationSpace kind) dst size)
    (hsrc : heap.Clear (sourceSpace kind) src size) :
    ∃ result, heap.copyRanges submissions kind dst src size memory = some result ∧
      (result.1 = .success → heap.Moves kind dst src 0 size memory result.2) := by
  have hdstout : ∀ i < size, ¬ heap.Staged (destinationSpace kind) (dst + i) := by
    rintro i hi ⟨hspace, hge, hlt⟩
    have := hdst.apart hspace
    omega
  have hsrcout : ∀ i < size, ¬ heap.Staged (sourceSpace kind) (src + i) := by
    rintro i hi ⟨hspace, hge, hlt⟩
    have := hsrc.apart hspace
    omega
  cases kind with
  | hostToDevice =>
    exact forwardChunks_moves (hostToDeviceChunk_moves hdst) hdstout hsrcout
      (fun h => by cases h) size 0 memory (by omega) (by omega)
  | deviceToHost =>
    exact forwardChunks_moves (deviceToHostChunk_moves hsrc) hdstout hsrcout
      (fun h => by cases h) size 0 memory (by omega) (by omega)
  | deviceToDevice =>
    have hdstbound := hdst.bounded rfl
    have hsrcbound := hsrc.bounded rfl
    have hdstwrap : u64 (dst + size) = dst + size := u64_of_lt (by omega)
    have hsrcwrap : u64 (src + size) = src + size := u64_of_lt (by omega)
    unfold Heap.copyRanges
    rw [hdstwrap, hsrcwrap]
    by_cases hoverlap : ¬ (dst < src + size ∧ src < dst + size)
    · rw [if_pos hoverlap]
      refine ⟨_, rfl, fun hsuccess => ?_⟩
      have hcopied := submitDirectKfdCopyLocked_copied (by omega) (by omega)
        (fun i hi j hj => by omega) hsuccess
      constructor
      · intro i _ hi
        exact hcopied.copied i hi
      · intro space a hrange hstaged
        cases space with
        | host => exact hcopied.host a
        | device => exact hcopied.frame a fun h => hrange ⟨rfl, by omega⟩
      · exact hcopied.launches
    · rw [if_neg hoverlap]
      by_cases hback : src < dst
      · rw [if_pos hback]
        exact backwardChunks_moves (overlappingChunk_moves hdst hsrc) hdstout hsrcout
          (fun _ => hback.le) size size memory (by omega) (by omega)
      · rw [if_neg hback]
        by_cases hfront : dst < src
        · rw [if_pos hfront]
          exact forwardChunks_moves (overlappingChunk_moves hdst hsrc) hdstout hsrcout
            (fun _ => hfront.le) size 0 memory (by omega) (by omega)
        · rw [if_neg hfront]
          have heq : dst = src := by omega
          subst heq
          exact ⟨_, rfl, fun _ => ⟨fun _ _ _ => rfl, fun _ _ _ _ => rfl, fun _ h => Or.inl h⟩⟩

/-- A resolved address is the pointer itself, and its range is clear. -/
theorem resolve_clear {heap : Heap} {space : Space} {address device size translated : ℕ}
    (hresolve : heap.resolve space address device size = some translated) :
    translated = address ∧ heap.Clear space address size := by
  cases space with
  | host =>
    refine ⟨?_, ⟨nofun, nofun⟩⟩
    unfold Heap.resolve at hresolve
    grind
  | device =>
    unfold Heap.resolve at hresolve
    cases hfind : heap.findLightRocrAllocation address device size with
    | none => simp [hfind] at hresolve
    | some entry =>
      obtain ⟨base, info⟩ := entry
      have hmem : (base, info) ∈ heap.allocations := List.mem_of_find?_eq_some hfind
      have hinside := List.find?_some hfind
      simp only [Bool.and_eq_true, decide_eq_true_eq] at hinside
      have hpointer : base = info.gpuAddress := heap.pointer_eq _ hmem
      have hlt : base + info.requestedSize < 2 ^ 64 := heap.allocation_lt _ hmem
      have hapart : base + info.requestedSize ≤ heap.stagingGpu ∨
          heap.stagingGpu + heap.stagingSize ≤ base := heap.staging_apart _ hmem
      refine ⟨?_, fun _ => by omega, fun _ => by omega⟩
      simp only [hfind, Heap.translateDirectKfdDevicePointer] at hresolve
      grind

/-- Every call of `lr_memcpy` returns. If it succeeds, the destination range
holds the bytes the source range held before, no byte outside the destination
and the runtime's own staging buffer has changed, and every copy kernel it
launched stored each byte of its range exactly once. -/
theorem lrMemcpy_memmove (heap : Heap) (env : MemcpyEnvironment) (device dst src size : ℕ)
    (kind : MemcpyKind) (bytes : Space → ℕ → UInt8) :
    ∃ status after, heap.lrMemcpy env device dst src size kind ⟨bytes, []⟩ =
        some (status, after) ∧
      (status = .success →
        (∀ i < size, after.bytes (destinationSpace kind) (dst + i) =
          bytes (sourceSpace kind) (src + i)) ∧
        (∀ space a, ¬ (space = destinationSpace kind ∧ dst ≤ a ∧ a < dst + size) →
          ¬ heap.Staged space a → after.bytes space a = bytes space a) ∧
        ∀ launch ∈ after.launches, launch.WritesOnce) := by
  unfold Heap.lrMemcpy
  by_cases hinit : heap.initialized = false
  · rw [if_pos hinit]
    exact ⟨_, _, rfl, fun h => by cases h⟩
  rw [if_neg hinit]
  by_cases hargs : heap.deviceCount ≤ device ∨ dst = 0 ∨ src = 0 ∨ size = 0
  · rw [if_pos hargs]
    exact ⟨_, _, rfl, fun h => by cases h⟩
  rw [if_neg hargs]
  by_cases hopened : heap.opened device = false
  · rw [if_pos hopened]
    exact ⟨_, _, rfl, fun h => by cases h⟩
  rw [if_neg hopened]
  cases hdst : heap.resolve (destinationSpace kind) dst device size with
  | none => exact ⟨_, _, rfl, fun h => by cases h⟩
  | some destination =>
    cases hsrc : heap.resolve (sourceSpace kind) src device size with
    | none => exact ⟨_, _, rfl, fun h => by cases h⟩
    | some source =>
      obtain ⟨rfl, hdstclear⟩ := resolve_clear hdst
      obtain ⟨rfl, hsrcclear⟩ := resolve_clear hsrc
      dsimp only
      split_ifs with hpins hsync hstate hstaging
      · exact ⟨_, _, rfl, fun h => by cases h⟩
      · exact ⟨_, _, rfl, fun h => absurd h hsync⟩
      · exact ⟨_, _, rfl, fun h => absurd h hstate⟩
      · exact ⟨_, _, rfl, fun h => by cases h⟩
      · obtain ⟨result, hrun, hmoves⟩ :=
          copyRanges_moves env.submissions ⟨bytes, []⟩ hdstclear hsrcclear
        refine ⟨result.1, result.2, hrun, fun hsuccess => ?_⟩
        have hmoved := hmoves hsuccess
        refine ⟨fun i hi => hmoved.copied i (by omega) hi, ?_, ?_⟩
        · intro space a hrange hstaged
          exact hmoved.frame space a (fun h => hrange ⟨h.1, by omega⟩) hstaged
        · intro launch hlaunch
          rcases hmoved.launches launch hlaunch with hold | honce
          · exact absurd hold (by simp)
          · exact honce

/-- One allocation of 64 bytes, and a staging buffer of two. -/
def smallHeap : Heap where
  initialized := true
  deviceCount := 1
  opened := fun _ => true
  allocations := [(4096, ⟨0, 64, false, 4096⟩)]
  hostAllocations := []
  stagingGpu := 8192
  stagingSize := 2
  staging_pos := by decide
  staging_lt := by decide
  pointer_eq := by decide
  allocation_lt := by decide
  staging_apart := by decide

/-- Nothing fails, and the second work-item of every copy is faster than the first one. -/
def promptEnvironment : MemcpyEnvironment := ⟨true, .success, .success, fun _ => ⟨.success, [1, 0]⟩⟩

/-- Five bytes move up by two, in three chunks from the last one on. -/
theorem lrMemcpy_memmove_overlapping : ∃ after,
    smallHeap.lrMemcpy promptEnvironment 0 4098 4096 5 .deviceToDevice
      ⟨fun _ a => UInt8.ofNat a, []⟩ = some (.success, after) ∧
    after.launches.map Launch.size = [2, 2, 2, 2, 1, 1] ∧
    ∀ i < 5, after.bytes .device (4098 + i) = UInt8.ofNat (4096 + i) := by
  obtain ⟨status, after, hrun, hmoved⟩ := lrMemcpy_memmove smallHeap promptEnvironment 0 4098 4096 5
    .deviceToDevice fun _ a => UInt8.ofNat a
  have hresult : (smallHeap.lrMemcpy promptEnvironment 0 4098 4096 5 .deviceToDevice
      ⟨fun _ a => UInt8.ofNat a, []⟩).map (fun result =>
        (result.1, result.2.launches.map Launch.size)) =
      some (.success, [2, 2, 2, 2, 1, 1]) := by
    decide +kernel
  rw [hrun] at hresult
  obtain ⟨rfl, hsizes⟩ := Prod.mk.inj (Option.some.inj hresult)
  exact ⟨after, hrun, hsizes, (hmoved rfl).1⟩

end LightRocm.Copy
