import Mathlib.Data.Nat.Bitwise
import Mathlib.Tactic

/-!
# A ring of slots

Entries are numbered, and an entry has the slot that is left of its number when
the high bits are masked off. `Holds` says that the entries from a number on are
still in their slots; writing the slot of the next entry keeps it as long as the
ring has room.
-/

namespace SlotRing

variable {α : Type} {count first id i j : ℕ} {slots : ℕ → α} {log : List α}

/-- The slot of an entry. -/
def slot (count id : ℕ) : ℕ := id &&& (count - 1)

/-- In a ring whose size is a power of two, masking is the remainder. -/
theorem slot_eq_mod (hcount : count.isPowerOfTwo) (id : ℕ) : slot count id = id % count := by
  obtain ⟨k, rfl⟩ := hcount
  exact Nat.and_two_pow_sub_one_eq_mod id k

/-- Entries that are less than a round apart have different slots. -/
theorem slot_ne (hcount : count.isPowerOfTwo) (hlt : i < j) (hnear : j < i + count) :
    slot count i ≠ slot count j := by
  rw [slot_eq_mod hcount, slot_eq_mod hcount]
  intro heq
  obtain ⟨k, hk⟩ : count ∣ j - i := (Nat.modEq_iff_dvd' hlt.le).mp heq
  have hzero : k = 0 := by
    by_contra hne
    have hle : count ≤ count * k := Nat.le_mul_of_pos_right _ (Nat.pos_of_ne_zero hne)
    omega
  rw [hzero] at hk
  omega

/-- The entries from `first` on are in their slots. -/
def Holds (count : ℕ) (slots : ℕ → α) (log : List α) (first : ℕ) : Prop :=
  ∀ id x, first ≤ id → log[id]? = some x → slots (slot count id) = x

/-- Fewer entries. -/
theorem Holds.mono (h : Holds count slots log first) (hle : first ≤ j) :
    Holds count slots log j :=
  fun id x hid => h id x (hle.trans hid)

/-- The slot of the next entry is free as long as the ring has room. -/
theorem Holds.write (h : Holds count slots log first) (hcount : count.isPowerOfTwo)
    (hroom : log.length < first + count) (x : α) :
    Holds count (Function.update slots (slot count log.length) x) log first := by
  intro id y hid hy
  have hlt : id < log.length := (List.getElem?_eq_some_iff.mp hy).1
  rw [Function.update_of_ne (slot_ne hcount hlt (by omega))]
  exact h id y hid hy

/-- The next entry is in its slot. -/
theorem Holds.snoc (h : Holds count slots log first) {x : α}
    (hx : slots (slot count log.length) = x) : Holds count slots (log ++ [x]) first := by
  intro id y hid hy
  rcases Nat.lt_or_ge id log.length with hlt | hge
  · rw [List.getElem?_append_left hlt] at hy
    exact h id y hid hy
  · obtain rfl : id = log.length := by
      have hlt := (List.getElem?_eq_some_iff.mp hy).1
      rw [List.length_append, List.length_singleton] at hlt
      omega
    obtain rfl : x = y := by simpa using hy
    exact hx

end SlotRing
