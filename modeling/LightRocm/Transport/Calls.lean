import LightRocm.Transport.Kernel

/-!
# Rules for the system calls

What each call of the kernel does to its state, one rule for each call: to prove
that a program which starts with the call ensures something, prove it of every
result the call can have.
-/

namespace LightRocm.Transport

open AddressSpace Program

/-- The answer to the next call. -/
def Kernel.answer (kernel : Kernel) : Answer := kernel.answers.headD {}

/-- The kernel when the next call starts: other threads come first. -/
def Kernel.advance (kernel : Kernel) : Kernel :=
  { kernel with
    answers := kernel.answers.tail
    space := kernel.answer.others.foldl Others.apply kernel.space }

section Rules

variable {kernel : Kernel} {owner : Name} {address size : UInt64} {handle count first : ℕ}
  {devices : List ℕ}

theorem ensures_nextAnswer {Post : Answer → Kernel → Prop}
    (h : Post kernel.answer kernel.advance) : nextAnswer.Ensures kernel Post := h

theorem ensures_succeeds {Post : Bool → Kernel → Prop}
    (h : ∀ ok, ok = kernel.answer.ok → Post ok kernel.advance) : succeeds.Ensures kernel Post :=
  h _ rfl

theorem ensures_mmap {Post : Option UInt64 → Kernel → Prop}
    (hsome : ∀ address, placeable kernel.advance.space address.toNat size.toNat = true →
      Post (some address) { kernel.advance with
        space := ⟨address.toNat, size.toNat, some owner⟩ :: kernel.advance.space })
    (hnone : Post none kernel.advance) : (mmap owner size).Ensures kernel Post := by
  apply Ensures.seq
  apply ensures_nextAnswer
  apply Ensures.seq
  apply Ensures.get
  apply Ensures.ite
  · rintro ⟨-, hplace⟩
    exact hsome kernel.answer.address hplace
  · intro _
    exact hnone

theorem ensures_mmapFixed {Post : Bool → Kernel → Prop}
    (hok : Post true { kernel.advance with
      space := place kernel.advance.space ⟨address.toNat, size.toNat, some owner⟩ })
    (hfail : Post false kernel.advance) : (mmapFixed owner address size).Ensures kernel Post := by
  apply Ensures.seq
  apply ensures_succeeds
  intro ok _
  apply Ensures.ite
  · intro _
    exact hok
  · intro _
    exact hfail

theorem ensures_allocMemoryOfGpu {Post : Option (ℕ × UInt64) → Kernel → Prop}
    (hsome : ∀ offset, Post (some (kernel.nextHandle, offset)) { kernel.advance with
      buffers := kernel.buffers ++ [⟨kernel.nextHandle, owner, []⟩]
      nextHandle := kernel.nextHandle + 1 })
    (hzero : ∀ offset, Post (some (0, offset)) kernel.advance)
    (hnone : Post none kernel.advance) : (allocMemoryOfGpu owner).Ensures kernel Post := by
  apply Ensures.seq
  apply ensures_nextAnswer
  apply Ensures.ite
  · intro _
    exact hnone
  · intro _
    apply Ensures.ite
    · intro _
      exact hzero kernel.answer.offset
    · intro _
      exact hsome kernel.answer.offset

theorem ensures_mapMemoryToGpu {Post : ℕ × Bool → Kernel → Prop}
    (h : ∀ reached, reached = attempts count first kernel.answer →
      Post (reached, kernel.answer.ok) (kernel.advance.updateBuffer handle fun mapped =>
        mapped ++ (devices.take reached).drop first)) :
    (mapMemoryToGpu handle devices count first).Ensures kernel Post :=
  h _ rfl

/-- The progress of an attempt is not less than before and at most the number of devices. -/
theorem attempt_bounds {count first : ℕ} (h : first ≤ count) (progress : ℕ) :
    first ≤ attempt count first progress ∧ attempt count first progress ≤ count := by
  unfold attempt
  omega

/-- The progress that the driver reports in the end is within bounds. -/
theorem attempts_bounds {count first : ℕ} (h : first ≤ count) (answer : Answer) :
    first ≤ attempts count first answer ∧ attempts count first answer ≤ count := by
  have hfold : ∀ (interrupted : List ℕ) (start : ℕ), start ≤ count →
      start ≤ interrupted.foldl (attempt count) start ∧
        interrupted.foldl (attempt count) start ≤ count := by
    intro interrupted
    induction interrupted with
    | nil => exact fun start hstart => ⟨le_rfl, hstart⟩
    | cons progress rest ih =>
      intro start hstart
      obtain ⟨hle, hbound⟩ := attempt_bounds hstart progress
      obtain ⟨hle', hbound'⟩ := ih _ hbound
      exact ⟨hle.trans hle', hbound'⟩
  obtain ⟨hle, hbound⟩ := hfold answer.interrupted first h
  obtain ⟨hle', hbound'⟩ := attempt_bounds hbound (answer.progress.getD count)
  exact ⟨hle.trans hle', hbound'⟩

end Rules

end LightRocm.Transport
