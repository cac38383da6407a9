import Mathlib.Data.Int.ModEq
import Mathlib.Data.List.Count
import Mathlib.Tactic

/-!
# Copies by strided workers

A fixed number of workers copies a block of cells. Worker `w` copies the cells
at `w`, `w + stride`, `w + 2 * stride` and so on, where `stride` is the number
of workers, and the workers take their steps in any order. Cells are of any
type and addresses are natural numbers.
-/

namespace StridedCopy

variable {α : Type}

/-- A block copy whose source and destination do not meet. -/
structure Task where
  /-- Address of the first cell that is read. -/
  source : ℕ
  /-- Address of the first cell that is written. -/
  destination : ℕ
  /-- Number of cells. -/
  size : ℕ
  /-- Number of workers, and the distance between two cells of one worker. -/
  stride : ℕ
  /-- There is at least one worker. -/
  stride_pos : 0 < stride
  /-- No cell is both read and written. -/
  apart : ∀ i < size, ∀ j < size, source + i ≠ destination + j

/-- A moment of a copy. -/
structure State (α : Type) where
  /-- Contents of the memory. -/
  memory : ℕ → α
  /-- The next offset of each worker. -/
  cursor : ℕ → ℕ
  /-- The offsets stored so far, in order. -/
  written : List ℕ

/-- One iteration of worker `w`; a worker past the end does nothing. -/
def Task.step (t : Task) (s : State α) (w : ℕ) : State α :=
  if w < t.stride ∧ s.cursor w < t.size then
    { memory := Function.update s.memory (t.destination + s.cursor w)
        (s.memory (t.source + s.cursor w))
      cursor := Function.update s.cursor w (s.cursor w + t.stride)
      written := s.written ++ [s.cursor w] }
  else s

/-- Every worker is past the end. -/
def Task.Finished (t : Task) (s : State α) : Prop := ∀ w < t.stride, t.size ≤ s.cursor w

/-- What holds between two steps: each worker stays in its own residue class,
the cells behind the cursors are copied, the others are untouched, and each
copied cell was stored once. -/
structure Task.Progress (t : Task) (before : ℕ → α) (s : State α) : Prop where
  /-- A cursor stays in the residue class of its worker. -/
  lane : ∀ w < t.stride, s.cursor w % t.stride = w
  /-- A cursor is at most one stride past the end. -/
  bounded : ∀ w < t.stride, s.cursor w < t.size + t.stride
  /-- The destination cells behind the cursors hold the source cells. -/
  copied : ∀ o < t.size, s.memory (t.destination + o) =
    if o < s.cursor (o % t.stride) then before (t.source + o) else before (t.destination + o)
  /-- Nothing outside the destination changes. -/
  frame : ∀ a, (∀ o < t.size, a ≠ t.destination + o) → s.memory a = before a
  /-- An offset was stored once if it is behind its cursor, and never otherwise. -/
  once : ∀ o, s.written.count o = if o < t.size ∧ o < s.cursor (o % t.stride) then 1 else 0

/-- A copy whose workers stand at their own first offsets has done nothing yet. -/
theorem Task.progress_start (t : Task) (before : ℕ → α) {cursor : ℕ → ℕ}
    (hcursor : ∀ w < t.stride, cursor w = w) : t.Progress before ⟨before, cursor, []⟩ := by
  have hbehind : ∀ o, ¬ o < cursor (o % t.stride) := fun o => by
    rw [hcursor _ (Nat.mod_lt _ t.stride_pos)]
    have := Nat.mod_le o t.stride
    omega
  constructor
  · intro w hw
    simpa only [hcursor w hw] using Nat.mod_eq_of_lt hw
  · intro w hw
    simp only [hcursor w hw]
    omega
  · intro o _
    simp [hbehind]
  · intro a _
    rfl
  · intro o
    simp [hbehind]

/-- Two offsets of one residue class, the smaller at least one stride below. -/
private theorem lt_add_stride_iff {stride o c : ℕ} (hpos : 0 < stride)
    (h : o % stride = c % stride) : o < c + stride ↔ o < c ∨ o = c := by
  constructor
  · intro hlt
    by_contra hnot
    have hgt : c < o := by omega
    have hdvd : stride ∣ o - c := (Nat.modEq_iff_dvd' hgt.le).mp h.symm
    have := Nat.le_of_dvd (by omega) hdvd
    omega
  · omega

variable {s : State α} {before : ℕ → α} {t : Task}

/-- One worker's step keeps the progress invariant. -/
theorem Task.Progress.step (h : t.Progress before s) (w : ℕ) :
    t.Progress before (t.step s w) := by
  unfold Task.step
  split
  case isFalse => exact h
  case isTrue hw =>
    obtain ⟨hworker, hcursor⟩ := hw
    have hlane := h.lane w hworker
    -- Whether an offset is behind the moved cursors.
    have hbehind : ∀ o, o < Function.update s.cursor w (s.cursor w + t.stride) (o % t.stride) ↔
        o < s.cursor (o % t.stride) ∨ o = s.cursor w := by
      intro o
      by_cases ho : o % t.stride = w
      · rw [ho, Function.update_self]
        exact lt_add_stride_iff t.stride_pos (by rw [ho, hlane])
      · rw [Function.update_of_ne ho]
        constructor
        · exact Or.inl
        · rintro (hlt | rfl)
          · exact hlt
          · exact absurd hlane ho
    have hread : s.memory (t.source + s.cursor w) = before (t.source + s.cursor w) :=
      h.frame _ fun o ho => t.apart _ hcursor _ ho
    constructor
    · intro v hv
      change Function.update s.cursor w (s.cursor w + t.stride) v % t.stride = v
      by_cases hvw : v = w
      · subst hvw
        rw [Function.update_self, Nat.add_mod_right]
        exact hlane
      · rw [Function.update_of_ne hvw]
        exact h.lane v hv
    · intro v hv
      change Function.update s.cursor w (s.cursor w + t.stride) v < t.size + t.stride
      by_cases hvw : v = w
      · subst hvw
        rw [Function.update_self]
        omega
      · rw [Function.update_of_ne hvw]
        exact h.bounded v hv
    · intro o ho
      simp only [hbehind]
      by_cases hoc : o = s.cursor w
      · subst hoc
        simp [hread]
      · have haddr : t.destination + o ≠ t.destination + s.cursor w := by omega
        rw [Function.update_of_ne haddr, h.copied o ho]
        simp [hoc]
    · intro a ha
      have haddr : a ≠ t.destination + s.cursor w := ha _ hcursor
      simpa only [Function.update_of_ne haddr] using h.frame a ha
    · intro o
      rw [List.count_append, h.once o]
      simp only [hbehind]
      by_cases hoc : o = s.cursor w
      · subst hoc
        have hnot : ¬ s.cursor w < s.cursor (s.cursor w % t.stride) := by
          rw [hlane]
          omega
        simp [hcursor, hnot]
      · have hne : s.cursor w ≠ o := fun heq => hoc heq.symm
        simp [hoc, hne]

/-- Once every worker is past the end, every cursor is past every offset. -/
theorem Task.Finished.behind (h : t.Finished s) {o : ℕ} (ho : o < t.size) :
    o < s.cursor (o % t.stride) :=
  lt_of_lt_of_le ho (h _ (Nat.mod_lt _ t.stride_pos))

/-- A finished copy has moved every cell. -/
theorem Task.Progress.copied_of_finished (h : t.Progress before s) (hfinished : t.Finished s)
    {o : ℕ} (ho : o < t.size) :
    s.memory (t.destination + o) = before (t.source + o) := by
  rw [h.copied o ho, if_pos (hfinished.behind ho)]

/-- A finished copy has stored every offset once and no other offset. -/
theorem Task.Progress.once_of_finished (h : t.Progress before s) (hfinished : t.Finished s) (o : ℕ)
    :
    s.written.count o = if o < t.size then 1 else 0 := by
  rw [h.once o]
  by_cases ho : o < t.size
  · simp [ho, hfinished.behind ho]
  · simp [ho]

end StridedCopy
