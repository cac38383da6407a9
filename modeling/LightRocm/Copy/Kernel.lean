import LightRocm.Lib.StridedCopy
import LightRocm.Status

/-!
# The copy kernel and its launch

The kernel `lrrt_copy_bytes` and the arguments `submit_direct_kfd_copy_locked`
launches it with. Work-items take their loop iterations in any order. The
unsigned loop counter of the source is kept with its wrap-around; the launch
arguments never let it wrap.
-/

namespace LightRocm.Copy

open StridedCopy (State Task)

/-- The kernel arguments, `CopyArguments` in `memory.cpp`. -/
structure CopyArguments where
  /-- Address of the first byte that is read. -/
  source : ℕ
  /-- Address of the first byte that is written. -/
  destination : ℕ
  /-- Number of bytes. -/
  size : ℕ
  /-- Distance between two bytes of one work-item. -/
  stride : ℕ
  /-- Work-items in a workgroup. -/
  workgroupSize : ℕ

/-- Work-items in a workgroup of the copy kernel. -/
def kBlockSize : ℕ := 256

/-- The most workgroups a copy uses. -/
def kMaximumWorkgroups : ℕ := 4096

/-- The number of workgroups of a copy of `size` bytes. -/
def workgroups (size : ℕ) : ℕ := min (1 + (size - 1) / kBlockSize) kMaximumWorkgroups

/-- The arguments of one launch, as `submit_direct_kfd_copy_locked` computes them. -/
def copyArguments (destination source size : ℕ) : CopyArguments where
  source := source
  destination := destination
  size := size
  stride := workgroups size * kBlockSize
  workgroupSize := kBlockSize

/-- The kernel's `index`, from the block and thread of work-item `item`. -/
def CopyArguments.index (args : CopyArguments) (item : ℕ) : ℕ :=
  u64 (item / kBlockSize * args.workgroupSize + item % kBlockSize)

/-- One iteration of the loop of `lrrt_copy_bytes` in work-item `item`. -/
def CopyArguments.iterate (args : CopyArguments) (items : ℕ) (s : State UInt8) (item : ℕ) :
    State UInt8 :=
  if item < items ∧ s.cursor item < args.size then
    { memory := Function.update s.memory (args.destination + s.cursor item)
        (s.memory (args.source + s.cursor item))
      cursor := Function.update s.cursor item (u64 (s.cursor item + args.stride))
      written := s.written ++ [s.cursor item] }
  else s

/-- A run of the kernel whose work-items take their iterations in the given order. -/
def lrrtCopyBytes (args : CopyArguments) (items : ℕ) (order : List ℕ) (memory : ℕ → UInt8) :
    State UInt8 :=
  order.foldl (args.iterate items) ⟨memory, args.index, []⟩

/-- Every work-item has left its loop. -/
def CopyArguments.finished (args : CopyArguments) (items : ℕ) (s : State UInt8) : Bool :=
  (List.range items).all fun item => decide (args.size ≤ s.cursor item)

/-- The number of workgroups is positive. -/
theorem workgroups_pos (size : ℕ) : 0 < workgroups size := by
  unfold workgroups kMaximumWorkgroups kBlockSize
  omega

/-- The stride is at most a mebibyte. -/
theorem workgroups_stride_le (size : ℕ) : workgroups size * kBlockSize ≤ 2 ^ 20 := by
  unfold workgroups kMaximumWorkgroups kBlockSize
  omega

/-- Two disjoint ranges below `2 ^ 64` leave room for one more stride. -/
theorem size_add_stride_le {destination source size : ℕ}
    (hsource : source + size < 2 ^ 64) (hdestination : destination + size < 2 ^ 64)
    (hapart : ∀ i < size, ∀ j < size, source + i ≠ destination + j) :
    size + workgroups size * kBlockSize ≤ 2 ^ 64 := by
  have hstride := workgroups_stride_le size
  by_contra hlarge
  have hsize : 2 ^ 63 < size := by omega
  rcases le_total source destination with hle | hle
  · exact hapart (destination - source) (by omega) 0 (by omega) (by omega)
  · exact hapart 0 (by omega) (source - destination) (by omega) (by omega)

/-- The strided task of a launch whose ranges do not meet. -/
def copyTask (destination source size : ℕ)
    (hapart : ∀ i < size, ∀ j < size, source + i ≠ destination + j) : Task where
  source := source
  destination := destination
  size := size
  stride := workgroups size * kBlockSize
  stride_pos := Nat.mul_pos (workgroups_pos size) (by decide)
  apart := hapart

section Launch

variable {destination source size : ℕ}
  (hapart : ∀ i < size, ∀ j < size, source + i ≠ destination + j)

/-- A work-item's index is its number. -/
theorem copyArguments_index (item : ℕ) (hitem : item < 2 ^ 64) :
    (copyArguments destination source size).index item = item := by
  unfold CopyArguments.index copyArguments
  rw [Nat.div_add_mod', u64_of_lt hitem]

/-- While the counters stay in range, the kernel's iteration is the strided
worker's step. -/
theorem iterate_eq_step (hroom : size + workgroups size * kBlockSize ≤ 2 ^ 64)
    (s : State UInt8) (item : ℕ) :
    (copyArguments destination source size).iterate (workgroups size * kBlockSize) s item =
      (copyTask destination source size hapart).step s item := by
  unfold CopyArguments.iterate Task.step
  by_cases h : item < workgroups size * kBlockSize ∧ s.cursor item < size
  · have hwrap : u64 (s.cursor item + workgroups size * kBlockSize) =
        s.cursor item + workgroups size * kBlockSize := u64_of_lt (by omega)
    rw [if_pos (by exact h), if_pos (by exact h)]
    simp only [copyArguments, copyTask, hwrap]
  · rw [if_neg (by exact h), if_neg (by exact h)]

/-- The cursors the kernel starts with agree with the strided workers' on every
work-item of the grid, so every iteration leaves the same state. -/
theorem lrrtCopyBytes_progress (hroom : size + workgroups size * kBlockSize ≤ 2 ^ 64)
    (order : List ℕ) (memory : ℕ → UInt8) :
    (copyTask destination source size hapart).Progress memory
      (lrrtCopyBytes (copyArguments destination source size)
        (workgroups size * kBlockSize) order memory) := by
  have hstart : (copyTask destination source size hapart).Progress memory
      ⟨memory, (copyArguments destination source size).index, []⟩ := by
    apply Task.progress_start
    intro w hw
    have hstride : w < workgroups size * kBlockSize := hw
    exact copyArguments_index w (by omega)
  unfold lrrtCopyBytes
  generalize (⟨memory, (copyArguments destination source size).index, []⟩ : State UInt8) = s
    at hstart ⊢
  induction order generalizing s with
  | nil => exact hstart
  | cons item order ih =>
    rw [List.foldl_cons, iterate_eq_step hapart hroom]
    exact ih _ (hstart.step item)

/-- The kernel's own test for the end of its loops is the workers'. -/
theorem finished_iff (s : State UInt8) :
    (copyArguments destination source size).finished (workgroups size * kBlockSize) s = true ↔
      (copyTask destination source size hapart).Finished s := by
  unfold CopyArguments.finished Task.Finished
  rw [List.all_eq_true]
  constructor
  · intro h w hw
    exact of_decide_eq_true (h w (List.mem_range.mpr hw))
  · intro h w hw
    exact decide_eq_true (h w (List.mem_range.mp hw))

end Launch

end LightRocm.Copy
