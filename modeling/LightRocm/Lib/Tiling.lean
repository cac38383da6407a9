import Mathlib.Data.List.Chain
import Mathlib.Tactic

/-!
# Tilings with free and used tiles

An interval that is cut into tiles, of which no two neighbours are free. A tile is cut out of the
first free one that it fits into, and merged with its neighbours when it is given back.
-/

namespace Tiling

/-- A part of an interval. -/
structure Tile where
  offset : ℕ
  size : ℕ
  free : Bool
  deriving DecidableEq

/-- The tiles cover the interval, each behind the other. -/
def Tiles : ℕ → List Tile → ℕ → Prop
  | lo, [], hi => lo = hi
  | lo, tile :: tiles, hi => tile.offset = lo ∧ 0 < tile.size ∧ Tiles (lo + tile.size) tiles hi

/-- No two neighbours are free. -/
def Merged (tiles : List Tile) : Prop := tiles.IsChain fun a b => a.free = false ∨ b.free = false

/-- The tiles in use. -/
def used (tiles : List Tile) : List Tile := tiles.filter fun tile => !tile.free

/-- The first tile that fits, with those before and behind it and the offset at which it fits. -/
def firstFit (fit : Tile → Option ℕ) : List Tile → Option (List Tile × Tile × List Tile × ℕ)
  | [] => none
  | tile :: tiles =>
    match fit tile with
    | some offset => some ([], tile, tiles, offset)
    | none => (firstFit fit tiles).map fun found => (tile :: found.1, found.2)

/-- A used tile that is cut out of a tile, with what is left before and behind it. -/
def carve (tile : Tile) (offset size : ℕ) : List Tile :=
  (if offset ≠ tile.offset then [⟨tile.offset, offset - tile.offset, tile.free⟩] else []) ++
    ⟨offset, size, false⟩ ::
      if offset + size ≠ tile.offset + tile.size then
        [⟨offset + size, tile.offset + tile.size - (offset + size), true⟩] else []

/-- The tile at an offset, with those before and behind it. -/
def find (offset : ℕ) : List Tile → Option (List Tile × Tile × List Tile)
  | [] => none
  | tile :: tiles =>
    if tile.offset = offset then some ([], tile, tiles)
    else (find offset tiles).map fun found => (tile :: found.1, found.2)

/-- Merge a tile with the one before it, if that is free. -/
def mergePrevious (before : List Tile) (tile : Tile) : List Tile × Tile :=
  match before.getLast? with
  | none => (before, tile)
  | some previous =>
    if previous.free ∧ previous.offset + previous.size = tile.offset then
      (before.dropLast, { previous with size := previous.size + tile.size })
    else (before, tile)

/-- Merge a tile with the one behind it, if that is free. -/
def mergeNext (tile : Tile) : List Tile → List Tile
  | [] => [tile]
  | next :: behind =>
    if next.free ∧ tile.offset + tile.size = next.offset then
      { tile with size := tile.size + next.size } :: behind
    else tile :: next :: behind

/-- Give the tile at an offset back; nothing if there is none. -/
def giveBack (offset : ℕ) (tiles : List Tile) : Option (List Tile) :=
  (find offset tiles).map fun found =>
    let merged := mergePrevious found.1 { found.2.1 with free := true }
    merged.1 ++ mergeNext merged.2 found.2.2

variable {lo mid hi offset size : ℕ} {tile other : Tile} {tiles before behind : List Tile}

/-! ## Tiles -/

theorem tiles_append :
    Tiles lo (before ++ behind) hi ↔ ∃ mid, Tiles lo before mid ∧ Tiles mid behind hi := by
  induction before generalizing lo with
  | nil => exact ⟨fun h => ⟨lo, rfl, h⟩, fun ⟨_, rfl, h⟩ => h⟩
  | cons tile before ih =>
    simp only [List.cons_append, Tiles, ih]
    constructor
    · rintro ⟨h₁, h₂, mid, h₃, h₄⟩
      exact ⟨mid, ⟨h₁, h₂, h₃⟩, h₄⟩
    · rintro ⟨mid, ⟨h₁, h₂, h₃⟩, h₄⟩
      exact ⟨h₁, h₂, mid, h₃, h₄⟩

theorem Tiles.le (h : Tiles lo tiles hi) : lo ≤ hi := by
  induction tiles generalizing lo with
  | nil => exact h.le
  | cons tile tiles ih => exact (Nat.le_add_right lo _).trans (ih h.2.2)

/-- A tile lies in the interval. -/
theorem Tiles.bounds (h : Tiles lo tiles hi) (hmem : tile ∈ tiles) :
    lo ≤ tile.offset ∧ tile.offset + tile.size ≤ hi ∧ 0 < tile.size := by
  induction tiles generalizing lo with
  | nil => cases hmem
  | cons head tiles ih =>
    obtain ⟨hoffset, hpos, hrest⟩ := h
    obtain rfl | hmem := List.mem_cons.mp hmem
    · have hle := hrest.le
      omega
    · have hbounds := ih hrest hmem
      omega

/-- Tiles lie one behind the other. -/
theorem Tiles.pairwise (h : Tiles lo tiles hi) :
    tiles.Pairwise fun a b => a.offset + a.size ≤ b.offset := by
  induction tiles generalizing lo with
  | nil => exact .nil
  | cons head tiles ih =>
    obtain ⟨hoffset, -, hrest⟩ := h
    refine .cons (fun tile hmem => ?_) (ih hrest)
    have hbounds := hrest.bounds hmem
    omega

/-- Two tiles are the same or have no point in common. -/
theorem Tiles.eq_or_disjoint (h : Tiles lo tiles hi) (htile : tile ∈ tiles)
    (hother : other ∈ tiles) : tile = other ∨
      tile.offset + tile.size ≤ other.offset ∨ other.offset + other.size ≤ tile.offset := by
  induction tiles generalizing lo with
  | nil => cases htile
  | cons head tiles ih =>
    have hhead := (List.pairwise_cons.mp h.pairwise).1
    obtain rfl | htail := List.mem_cons.mp htile
    · obtain rfl | hbehind := List.mem_cons.mp hother
      · exact .inl rfl
      · exact .inr (.inl (hhead other hbehind))
    · obtain rfl | hbehind := List.mem_cons.mp hother
      · exact .inr (.inr (hhead tile htail))
      · exact ih h.2.2 htail hbehind

/-- The offset of a tile tells which one it is. -/
theorem Tiles.eq_of_offset (h : Tiles lo tiles hi) (htile : tile ∈ tiles) (hother : other ∈ tiles)
    (heq : tile.offset = other.offset) : tile = other := by
  have hpos := (h.bounds htile).2.2
  have hpos' := (h.bounds hother).2.2
  obtain hsame | hapart := h.eq_or_disjoint htile hother
  · exact hsame
  · omega

theorem used_append : used (before ++ behind) = used before ++ used behind := List.filter_append ..

theorem mem_used : tile ∈ used tiles ↔ tile ∈ tiles ∧ tile.free = false := by
  simp [used]

theorem used_cons :
    used (tile :: tiles) = if tile.free then used tiles else tile :: used tiles := by
  cases hfree : tile.free <;> simp [used, hfree]

theorem merged_append : Merged (before ++ behind) ↔ Merged before ∧ Merged behind ∧
    ∀ a ∈ before.getLast?, ∀ b ∈ behind.head?, a.free = false ∨ b.free = false :=
  List.isChain_append

theorem merged_cons : Merged (tile :: tiles) ↔
    (∀ b ∈ tiles.head?, tile.free = false ∨ b.free = false) ∧ Merged tiles :=
  List.isChain_cons

/-! ## Carving -/

theorem firstFit_eq_some {fit : Tile → Option ℕ}
    (h : firstFit fit tiles = some (before, tile, behind, offset)) :
    tiles = before ++ tile :: behind ∧ fit tile = some offset := by
  induction tiles generalizing before with
  | nil => cases h
  | cons head tiles ih =>
    unfold firstFit at h
    cases hfit : fit head with
    | some found =>
      rw [hfit] at h
      cases h
      exact ⟨rfl, hfit⟩
    | none =>
      rw [hfit] at h
      obtain ⟨⟨before', rest⟩, hrest, heq⟩ := Option.map_eq_some_iff.mp h
      cases heq
      obtain ⟨rfl, hfound⟩ := ih hrest
      exact ⟨rfl, hfound⟩

section Carve

variable (hlo : tile.offset ≤ offset) (hhi : offset + size ≤ tile.offset + tile.size)
  (hsize : 0 < size)

include hlo hhi hsize in
theorem tiles_carve (h : Tiles lo (before ++ tile :: behind) hi) :
    Tiles lo (before ++ (carve tile offset size ++ behind)) hi := by
  obtain ⟨mid, hbefore, rfl, hpos, hbehind⟩ := tiles_append.mp h
  refine tiles_append.mpr ⟨tile.offset, hbefore, tiles_append.mpr
    ⟨tile.offset + tile.size, ?_, hbehind⟩⟩
  unfold carve
  split_ifs <;> simp only [Tiles, List.nil_append, List.singleton_append, true_and] <;> and_intros
    <;>
    omega

theorem merged_carve (hfree : tile.free = true) (h : Merged (before ++ tile :: behind)) :
    Merged (before ++ (carve tile offset size ++ behind)) := by
  obtain ⟨hbefore, htile, hlast⟩ := merged_append.mp h
  obtain ⟨hhead, hbehind⟩ := merged_cons.mp htile
  have hlast' : ∀ a ∈ before.getLast?, a.free = false := fun a ha =>
    (hlast a ha tile rfl).resolve_right (by simp [hfree])
  have hhead' : ∀ b ∈ behind.head?, b.free = false := fun b hb =>
    (hhead b hb).resolve_left (by simp [hfree])
  have hcarve : Merged (carve tile offset size) := by
    unfold carve
    split_ifs <;> simp [Merged]
  refine merged_append.mpr ⟨hbefore, merged_append.mpr ⟨hcarve, hbehind, ?_⟩, ?_⟩
  · exact fun a _ b hb => .inr (hhead' b hb)
  · exact fun a ha b _ => .inl (hlast' a ha)

theorem used_carve (hfree : tile.free = true) : used (carve tile offset size) =
    [⟨offset, size, false⟩] := by
  unfold carve
  split_ifs <;> simp [used, hfree]

end Carve

/-! ## Giving back -/

theorem find_eq_some (h : find offset tiles = some (before, tile, behind)) :
    tiles = before ++ tile :: behind ∧ tile.offset = offset := by
  induction tiles generalizing before with
  | nil => cases h
  | cons head tiles ih =>
    unfold find at h
    split_ifs at h with heq
    · cases h
      exact ⟨rfl, heq⟩
    · obtain ⟨⟨before', rest⟩, hrest, hfound⟩ := Option.map_eq_some_iff.mp h
      cases hfound
      obtain ⟨rfl, hoffset⟩ := ih hrest
      exact ⟨rfl, hoffset⟩

theorem find_isSome (h : tile ∈ tiles) : (find tile.offset tiles).isSome := by
  induction tiles with
  | nil => cases h
  | cons head tiles ih =>
    unfold find
    split_ifs with heq
    · rfl
    · obtain rfl | hmem := List.mem_cons.mp h
      · exact absurd rfl heq
      · rw [Option.isSome_map]
        exact ih hmem

/-- What merging with the tile before does. -/
theorem mergePrevious_spec (hfree : tile.free = true) (h : Tiles lo (before ++ tile :: behind) hi)
    (hmerged : Merged before) :
    Tiles lo ((mergePrevious before tile).1 ++ (mergePrevious before tile).2 :: behind) hi ∧
      used (mergePrevious before tile).1 = used before ∧
      (mergePrevious before tile).2.free = true ∧ Merged (mergePrevious before tile).1 ∧
      ∀ a ∈ (mergePrevious before tile).1.getLast?, a.free = false := by
  obtain rfl | ⟨before, previous, rfl⟩ := List.eq_nil_or_concat before
  · exact ⟨h, rfl, hfree, hmerged, by simp [mergePrevious]⟩
  · rw [List.concat_eq_append] at h hmerged ⊢
    obtain ⟨mid, hbefore, rfl, hpos, hbehind⟩ := tiles_append.mp h
    obtain ⟨start, hstart, rfl, hpos', htouch⟩ := tiles_append.mp hbefore
    obtain ⟨hmerged', -, hlast⟩ := merged_append.mp hmerged
    cases hprevious : previous.free with
    | true =>
      have hmerge : mergePrevious (before ++ [previous]) tile =
          (before, { previous with size := previous.size + tile.size }) := by
        simp [mergePrevious, hprevious, show previous.offset + previous.size = tile.offset from
          htouch]
      rw [hmerge]
      refine ⟨?_, ?_, hprevious, hmerged', fun a ha => ?_⟩
      · refine tiles_append.mpr ⟨_, hstart, rfl, Nat.add_pos_left hpos' _, ?_⟩
        have hassoc : previous.offset + (previous.size + tile.size) = tile.offset + tile.size := by
          rw [← Nat.add_assoc]
          exact congrArg (· + tile.size) htouch
        rw [hassoc]
        exact hbehind
      · simp [hprevious, used]
      · exact (hlast a ha previous rfl).resolve_right (by simp [hprevious])
    | false =>
      have hkeep : mergePrevious (before ++ [previous]) tile = (before ++ [previous], tile) := by
        simp [mergePrevious, hprevious]
      rw [hkeep]
      exact ⟨h, rfl, hfree, hmerged, by simp [hprevious]⟩

/-- What merging with the tile behind does. -/
theorem mergeNext_spec (hfree : tile.free = true) (h : Tiles lo (tile :: behind) hi)
    (hmerged : Merged behind) :
    Tiles lo (mergeNext tile behind) hi ∧ used (mergeNext tile behind) = used behind ∧
      Merged (mergeNext tile behind) := by
  cases behind with
  | nil => exact ⟨h, by simp [mergeNext, used, hfree], List.isChain_singleton _⟩
  | cons next behind =>
    obtain ⟨rfl, hpos, hnext, hpos', hbehind⟩ := h
    obtain ⟨hhead, hmerged'⟩ := merged_cons.mp hmerged
    cases hfree' : next.free with
    | true =>
      have hmerge : mergeNext tile (next :: behind) =
          { tile with size := tile.size + next.size } :: behind := by
        simp [mergeNext, hfree', hnext]
      rw [hmerge]
      refine ⟨⟨rfl, Nat.add_pos_left hpos _, ?_⟩, ?_, merged_cons.mpr ⟨fun b hb => ?_, hmerged'⟩⟩
      · rw [← Nat.add_assoc]
        exact hbehind
      · simp [used_cons, hfree, hfree']
      · exact .inr ((hhead b hb).resolve_left (by simp [hfree']))
    | false =>
      have hkeep : mergeNext tile (next :: behind) = tile :: next :: behind := by
        simp [mergeNext, hfree']
      rw [hkeep]
      refine ⟨⟨rfl, hpos, hnext, hpos', hbehind⟩, by simp [used_cons, hfree], ?_⟩
      exact merged_cons.mpr ⟨fun b hb => .inr (Option.some.inj hb ▸ hfree'), hmerged⟩

/-- A tile that is given back leaves the other used tiles. -/
theorem giveBack_spec (h : Tiles lo tiles hi) (hmerged : Merged tiles) (hmem : tile ∈ tiles) :
    ∃ before behind tiles', tiles = before ++ tile :: behind ∧
      giveBack tile.offset tiles = some tiles' ∧ Tiles lo tiles' hi ∧ Merged tiles' ∧
      used tiles' = used before ++ used behind := by
  obtain ⟨⟨before, found, behind⟩, hfind⟩ := Option.isSome_iff_exists.mp (find_isSome hmem)
  obtain ⟨hsplit, hoffset⟩ := find_eq_some hfind
  obtain rfl : found = tile :=
    h.eq_of_offset (hsplit ▸ List.mem_append_right _ List.mem_cons_self) hmem hoffset
  obtain ⟨hbefore, hrest, -⟩ := merged_append.mp (hsplit ▸ hmerged)
  have hbehind := (merged_cons.mp hrest).2
  -- The tile counts as free from now on.
  have hfreed : Tiles lo (before ++ { found with free := true } :: behind) hi := by
    rw [hsplit] at h
    obtain ⟨mid, hstart, hend⟩ := tiles_append.mp h
    exact tiles_append.mpr ⟨mid, hstart, hend⟩
  obtain ⟨htiles, husedBefore, hfree, hmerged', hlast⟩ := mergePrevious_spec rfl hfreed hbefore
  obtain ⟨mid, hstart, hend⟩ := tiles_append.mp htiles
  obtain ⟨hnext, husedBehind, hmergedNext⟩ := mergeNext_spec hfree hend hbehind
  refine ⟨before, behind, _, hsplit, by rw [giveBack, hfind]; rfl, ?_, ?_, ?_⟩
  · exact tiles_append.mpr ⟨mid, hstart, hnext⟩
  · exact merged_append.mpr ⟨hmerged', hmergedNext, fun a ha b _ => .inl (hlast a ha)⟩
  · rw [used_append, husedBefore, husedBehind]

end Tiling
