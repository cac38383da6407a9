import Mathlib.Data.List.Basic
import Mathlib.Tactic

/-!
# Address spaces

The mappings of a process as a list of regions with owners. A mapping is placed at
a free range or over a given one, and removing a range cuts it out of every region.
-/

namespace AddressSpace

variable {Owner : Type}

/-- A mapping. -/
structure Region (Owner : Type) where
  start : ℕ
  size : ℕ
  owner : Owner
  deriving DecidableEq

/-- The region shares an address with a range. -/
def Region.meets (region : Region Owner) (start size : ℕ) : Bool :=
  decide (0 < region.size) && decide (0 < size) && decide (region.start < start + size) &&
    decide (start < region.start + region.size)

/-- What is left of a region without a range. -/
def Region.remove (region : Region Owner) (start size : ℕ) : List (Region Owner) :=
  [{ region with size := min region.size (start - region.start) },
    { region with
      start := max region.start (start + size)
      size := region.start + region.size - max region.start (start + size) }].filter
    fun part => decide (0 < part.size)

/-- An address space. -/
abbrev Space (Owner : Type) : Type := List (Region Owner)

/-- Nobody maps anything of the range. -/
def isFree (space : Space Owner) (start size : ℕ) : Bool :=
  space.all fun region => !region.meets start size

/-- Remove the range from all mappings that `who` tells. -/
def removeWhere (who : Owner → Bool) (space : Space Owner) (start size : ℕ) : Space Owner :=
  space.flatMap fun region =>
    if who region.owner then region.remove start size else [region]

/-- Remove the range from all mappings. -/
def remove (space : Space Owner) (start size : ℕ) : Space Owner :=
  removeWhere (fun _ => true) space start size

/-- Place a mapping over whatever is there. -/
def place (space : Space Owner) (region : Region Owner) : Space Owner :=
  region :: remove space region.start region.size

end AddressSpace
