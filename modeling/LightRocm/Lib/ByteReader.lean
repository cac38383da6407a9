import Mathlib.Tactic

/-!
# Checked reading of a byte string

A reader computes a value from a byte string. It may reject its input; reading
outside the input and not coming to an end are kept apart from that, so that
`Ensures` can rule them out. The rules below compose what the steps of a reader
ensure.
-/

namespace ByteReader

/-- How a reader stops without a result. -/
inductive Stop (ε : Type) where
  /-- It has read outside its input. -/
  | outside (index : ℕ)
  /-- It has not come to an end. -/
  | diverges
  /-- It rejects its input. -/
  | rejects (error : ε)
  deriving DecidableEq

/-- A computation that reads a byte string. -/
abbrev Reader (ε α : Type) := Except (Stop ε) α

variable {ε α β : Type}

/-- The input is rejected. -/
def reject (error : ε) : Reader ε α := .error (.rejects error)

/-- An entry of a list. -/
def entry (data : List α) (index : ℕ) : Reader ε α :=
  match data[index]? with
  | some a => .ok a
  | none => .error (.outside index)

/-- Entries from an offset on. -/
def entries (data : List α) (offset : ℕ) : ℕ → Reader ε (List α)
  | 0 => .ok []
  | count + 1 => do
    let first ← entry data offset
    let rest ← entries data (offset + 1) count
    return first :: rest

/-- The number whose bytes are given, the highest first. -/
def bigEndian (bytes : List UInt8) : ℕ := bytes.foldl (fun value byte => 256 * value + byte.toNat) 0

/-! ## What a reader ensures -/

/-- The reader stays inside its input, comes to an end, and a value it gives satisfies `P`. -/
def Ensures (x : Reader ε α) (P : α → Prop) : Prop :=
  match x with
  | .ok a => P a
  | .error (.rejects _) => True
  | .error _ => False

variable {x : Reader ε α} {f : α → Reader ε β} {P Q : α → Prop} {R : β → Prop} {a : α}

theorem ensures_pure (h : P a) : Ensures (pure a : Reader ε α) P := h

theorem ensures_reject (error : ε) : Ensures (reject error : Reader ε α) P := trivial

theorem Ensures.of_ok (h : Ensures x P) (hx : x = .ok a) : P a := by
  rw [hx] at h
  exact h

theorem Ensures.mono (h : Ensures x P) (himp : ∀ a, P a → Q a) : Ensures x Q := by
  match x, h with
  | .ok a, h => exact himp a h
  | .error (.rejects _), _ => trivial

/-- What the steps ensure one after the other. -/
theorem Ensures.bind (h : Ensures x P) (hf : ∀ a, P a → Ensures (f a) R) : Ensures (x >>= f) R := by
  match x, h with
  | .ok a, h => exact hf a h
  | .error (.rejects _), _ => trivial

/-- A check that rejects. -/
theorem Ensures.guard {condition : Prop} [Decidable condition] {error : ε}
    (h : ¬ condition → Ensures x P) : Ensures (if condition then reject error else x) P := by
  split
  · trivial
  · exact h ‹_›

/-- Entries inside the list are read. -/
theorem entries_eq {data : List α} {offset count : ℕ} (h : offset + count ≤ data.length) :
    (entries data offset count : Reader ε (List α)) = .ok ((data.drop offset).take count) := by
  induction count generalizing offset with
  | zero => rfl
  | succ count ih =>
    have hlt : offset < data.length := by omega
    rw [entries, ih (by omega), entry, List.getElem?_eq_getElem hlt, List.drop_eq_getElem_cons hlt,
      List.take_succ_cons]
    rfl

end ByteReader
