import Mathlib.Tactic

/-!
# Writing into a memory of bytes

A memory has a byte at every address. A write puts a list of bytes at the addresses
from its start on; everything else is unchanged.
-/

namespace ByteMemory

/-- A byte at every address. -/
abbrev Memory := ℕ → UInt8

/-- The memory after a copy of the bytes to the addresses from `start` on. -/
def write (memory : Memory) (start : ℕ) (bytes : List UInt8) : Memory := fun address =>
  if start ≤ address then bytes.getD (address - start) (memory address) else memory address

variable {memory : Memory} {start address : ℕ} {bytes : List UInt8}

/-- The address lies in a range given by its start and its length. -/
def InRange (start length address : ℕ) : Prop := start ≤ address ∧ address < start + length

instance (start length address : ℕ) : Decidable (InRange start length address) :=
  inferInstanceAs (Decidable (_ ∧ _))

/-- Outside its range a write changes nothing. -/
theorem write_outside (h : ¬ InRange start bytes.length address) :
    write memory start bytes address = memory address := by
  unfold write
  split
  · rename_i hle
    unfold InRange at h
    have hlength : bytes.length ≤ address - start := by omega
    rw [List.getD_eq_getElem?_getD, List.getElem?_eq_none hlength, Option.getD_none]
  · rfl

/-- What a write changes lies in its range. -/
theorem inRange_of_write_ne (h : write memory start bytes address ≠ memory address) :
    InRange start bytes.length address := by
  by_contra houtside
  exact h (write_outside houtside)

/-- Inside its range a write puts its bytes. -/
theorem write_inside {i : ℕ} (h : i < bytes.length) :
    write memory start bytes (start + i) = bytes.get ⟨i, h⟩ := by
  unfold write
  rw [if_pos (Nat.le_add_right _ _), Nat.add_sub_cancel_left, List.getD_eq_getElem?_getD,
    List.getElem?_eq_getElem h]
  rfl

/-- A part of an image that is replaced, copied with the image or after it. -/
theorem write_splice {base offset : ℕ} {image : List UInt8}
    (h : offset + bytes.length ≤ image.length) :
    write memory base (image.take offset ++ bytes ++ image.drop (offset + bytes.length)) =
      write (write memory base image) (base + offset) bytes := by
  have htake : (image.take offset).length = offset := List.length_take_of_le (by omega)
  funext address
  by_cases hrange : InRange (base + offset) bytes.length address
  · obtain ⟨j, rfl⟩ := Nat.exists_eq_add_of_le hrange.1
    have hj : j < bytes.length := Nat.lt_of_add_lt_add_left hrange.2
    rw [write_inside hj]
    unfold write
    rw [if_pos (by omega), show base + offset + j - base = offset + j by omega,
      List.getD_eq_getElem?_getD, List.append_assoc, List.getElem?_append_right (by omega), htake,
      Nat.add_sub_cancel_left, List.getElem?_append_left hj, List.getElem?_eq_getElem hj]
    rfl
  · rw [write_outside hrange]
    unfold InRange at hrange
    unfold write
    by_cases hle : base ≤ address
    · rw [if_pos hle, if_pos hle, List.getD_eq_getElem?_getD, List.getD_eq_getElem?_getD]
      obtain hlow | hhigh : address - base < offset ∨ offset + bytes.length ≤ address - base := by
        omega
      · rw [List.append_assoc, List.getElem?_append_left (by omega), List.getElem?_take_of_lt hlow]
      · rw [List.getElem?_append_right (by rw [List.length_append]; omega), List.length_append,
          htake, List.getElem?_drop, Nat.add_sub_cancel' hhigh]
    · rw [if_neg hle, if_neg hle]

/-- The bytes from an address on. -/
def read (memory : Memory) (start length : ℕ) : List UInt8 :=
  (List.range length).map fun i => memory (start + i)

@[simp] theorem length_read (memory : Memory) (start length : ℕ) :
    (read memory start length).length = length := by
  rw [read, List.length_map, List.length_range]

/-! ## Two memories with the same bytes -/

/-- The two memories have the same bytes from their starts on. -/
def Agree (first second : Memory) (start start' length : ℕ) : Prop :=
  ∀ i < length, first (start + i) = second (start' + i)

section Agree

variable {first second : Memory} {start' length : ℕ}

theorem Agree.read_eq (h : Agree first second start start' length) :
    read first start length = read second start' length := by
  apply List.map_congr_left
  intro i hi
  exact h i (List.mem_range.mp hi)

/-- The same bytes written at the same place keep the agreement. -/
theorem Agree.written (h : Agree first second start start' length) (offset : ℕ) (bytes : List UInt8) :
    Agree (write first (start + offset) bytes) (write second (start' + offset) bytes) start start'
      length := by
  intro i hi
  by_cases hrange : InRange offset bytes.length i
  · obtain ⟨hoffset, hlength⟩ := hrange
    obtain ⟨j, rfl⟩ := Nat.exists_eq_add_of_le hoffset
    rw [← Nat.add_assoc, ← Nat.add_assoc, write_inside (by omega), write_inside (by omega)]
  · unfold InRange at hrange
    rw [write_outside, write_outside, h i hi]
    · unfold InRange
      omega
    · unfold InRange
      omega

/-- Bytes that have just been written agree, whatever was there before. -/
theorem agree_write (first second : Memory) (start start' : ℕ) (bytes : List UInt8) :
    Agree (write first start bytes) (write second start' bytes) start start' bytes.length := by
  intro i hi
  rw [write_inside hi, write_inside hi]

/-- The rest is written behind a part that agrees. -/
theorem Agree.extend (h : Agree first second start start' length) (bytes : List UInt8) :
    Agree (write first (start + length) bytes) (write second (start' + length) bytes) start start'
      (length + bytes.length) := by
  intro i hi
  by_cases hlow : i < length
  · exact h.written length bytes i hlow
  · obtain ⟨j, rfl⟩ := Nat.exists_eq_add_of_le (Nat.le_of_not_lt hlow)
    rw [← Nat.add_assoc, ← Nat.add_assoc]
    exact agree_write first second _ _ bytes j (by omega)

end Agree

end ByteMemory
