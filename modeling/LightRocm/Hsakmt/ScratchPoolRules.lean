import LightRocm.Hsakmt.ScratchLease

/-!
# What the sections of a scratch pool keep

A pool is tiled by its ranges, and its leases that have not returned their range are its used
ranges. Every section under the lock of the pool keeps this, whatever its calls answer.
-/

namespace LightRocm.Hsakmt

open Tiling

/-- The range of a lease. -/
def Lease.range (lease : Lease) : Tile := ⟨lease.offset, lease.size, false⟩

/-- What holds of a pool. -/
structure Pool.Ok (pool : Pool) : Prop where
  tiles : Tiles 0 pool.ranges pool.capacity
  merged : Merged pool.ranges
  active : pool.activeLeases = (used pool.ranges).length
  counted : pool.activeLeases = pool.leases.countP fun lease => !lease.rangeReturned
  space : pool.base + pool.capacity ≤ 2 ^ 64
  retired : pool.retired = true → pool.reserved = false
  reserved : pool.reserved = false → pool.activeLeases = 0
  range : ∀ lease ∈ pool.leases, lease.rangeReturned = false →
    lease.range ∈ used pool.ranges ∧ (pool.base + lease.offset) % lease.alignment = 0
  unmapped : ∀ lease ∈ pool.leases, lease.rangeReturned = true → lease.mapped = false
  apart : pool.leases.Pairwise fun a b =>
    a.rangeReturned = false → b.rangeReturned = false → a.offset ≠ b.offset
  orphans : pool.orphans = 0
  frees : ∀ mapped ∈ pool.frees, mapped = 0

namespace Pool.Ok

variable {pool : Pool}

/-- Without an active lease nothing is mapped. -/
theorem mappedRanges_eq_zero (h : pool.Ok) (hactive : pool.activeLeases = 0) :
    pool.mappedRanges = 0 := by
  rw [h.counted, List.countP_eq_zero] at hactive
  unfold mappedRanges
  rw [h.orphans, Nat.add_zero, List.countP_eq_zero]
  intro lease hmem
  rw [h.unmapped lease hmem (by simpa using hactive lease hmem)]
  exact Bool.false_ne_true

/-- The reservation may be freed without an active lease. -/
theorem releaseReservation (h : pool.Ok) (hactive : pool.activeLeases = 0) (freed : Bool) :
    (pool.releaseReservation freed).1.Ok := by
  unfold Pool.releaseReservation
  split_ifs with hreserved
  · refine { h with
      retired := fun hretired => absurd (h.retired hretired) (by simp [hreserved])
      reserved := fun _ => hactive
      frees := fun mapped hmem => ?_ }
    obtain rfl | hold := List.mem_cons.mp hmem
    · exact h.mappedRanges_eq_zero hactive
    · exact h.frees mapped hold
  · exact h

end Pool.Ok

/-- What freeing the reservation leaves alone. -/
theorem Pool.releaseReservation_frame (freed : Bool) (pool : Pool) :
    ∃ reserved frees, (pool.releaseReservation freed).1 = { pool with reserved, frees } ∧
      (reserved = true → pool.reserved = true) ∧
      ((pool.releaseReservation freed).2 = true → reserved = false) ∧
      (freed = true → (pool.releaseReservation freed).2 = true) := by
  unfold Pool.releaseReservation
  split_ifs with hreserved
  · exact ⟨!freed, _, rfl, fun _ => hreserved, by simp, by simp⟩
  · exact ⟨pool.reserved, pool.frees, rfl, fun h => h, fun _ => by simpa using hreserved,
      fun _ => rfl⟩

/-! ## Leases of a pool -/

variable {pool : Pool}

/-- Two leases that have a range have different ones. -/
theorem Pool.Ok.offset_ne (h : pool.Ok) {i j : ℕ} {a b : Lease} (hne : i ≠ j)
    (hi : pool.leases[i]? = some a) (hj : pool.leases[j]? = some b) (ha : a.rangeReturned = false)
    (hb : b.rangeReturned = false) : a.offset ≠ b.offset := by
  obtain ⟨hi', rfl⟩ := List.getElem?_eq_some_iff.mp hi
  obtain ⟨hj', rfl⟩ := List.getElem?_eq_some_iff.mp hj
  have hpairs := List.pairwise_iff_getElem.mp h.apart
  obtain hlt | hgt := Nat.lt_or_gt_of_ne hne
  · exact hpairs i j hi' hj' hlt ha hb
  · exact fun heq => hpairs j i hj' hi' hgt hb ha heq.symm

/-- A lease that still has its range is another one than the lease that has returned its own. -/
theorem exists_index_of_mem_set {leases : List Lease} {i : ℕ} {new lease : Lease}
    (hmem : lease ∈ leases.set i new) (hne : lease ≠ new) : ∃ j ≠ i, leases[j]? = some lease := by
  obtain ⟨j, hj⟩ := List.mem_iff_getElem?.mp hmem
  rw [List.getElem?_set] at hj
  split_ifs at hj with heq hlt
  · exact absurd (Option.some.inj hj).symm hne
  · exact ⟨j, fun h => heq h.symm, hj⟩

variable {lease : Lease}

/-- The list around an index. -/
theorem split_at_index {leases : List Lease} {i : ℕ} (hi : leases[i]? = some lease) :
    ∃ before behind, leases = before ++ lease :: behind ∧
      (∀ new, leases.set i new = before ++ new :: behind) ∧
      leases.eraseIdx i = before ++ behind := by
  obtain ⟨hlt, rfl⟩ := List.getElem?_eq_some_iff.mp hi
  refine ⟨leases.take i, leases.drop (i + 1), ?_, fun new => ?_, ?_⟩
  · rw [← List.drop_eq_getElem_cons hlt, List.take_append_drop]
  · rw [List.set_eq_take_append_cons_drop, if_pos hlt]
  · exact List.eraseIdx_eq_take_drop_succ ..

/-- A lease returns its range. -/
theorem Pool.Ok.giveBack (h : pool.Ok) {i : ℕ} (hi : pool.leases[i]? = some lease)
    (hlive : lease.rangeReturned = false) :
    ∃ ranges, giveBack lease.offset pool.ranges = some ranges ∧
      { pool with
        ranges
        activeLeases := pool.activeLeases - 1
        leases := pool.leases.set i lease.returned }.Ok := by
  have hmem := List.mem_of_getElem? hi
  obtain ⟨hrange, hused⟩ := mem_used.mp (h.range lease hmem hlive).1
  obtain ⟨before, behind, ranges, hsplit, hback, htiles, hmerged, husedRanges⟩ :=
    giveBack_spec h.tiles h.merged hrange
  have hold : used pool.ranges = used before ++ lease.range :: used behind := by
    rw [hsplit, used_append, used_cons, if_neg (by simp [hused])]
  have hlive' : ∀ other ∈ pool.leases.set i lease.returned, other.rangeReturned = false →
      ∃ j ≠ i, pool.leases[j]? = some other := fun other hother hnot =>
    exists_index_of_mem_set hother (by rintro rfl; cases hnot)
  refine ⟨ranges, hback, { h with
    tiles := htiles
    merged := hmerged
    active := ?_
    counted := ?_
    reserved := fun hnot => by simp [h.reserved hnot]
    range := ?_
    unmapped := ?_
    apart := ?_ }⟩
  · rw [h.active, husedRanges, hold]
    simp
  · obtain ⟨front, back, heq, hset, -⟩ := split_at_index hi
    rw [h.counted, hset, heq]
    simp [hlive, Lease.returned]
  · intro other hother hnot
    obtain ⟨j, hne, hj⟩ := hlive' other hother hnot
    obtain ⟨hin, haligned⟩ := h.range other (List.mem_of_getElem? hj) hnot
    refine ⟨?_, haligned⟩
    have hdiffer : other.range ≠ lease.range := fun heq =>
      h.offset_ne hne hj hi hnot hlive (congrArg Tile.offset heq)
    rw [hold, List.mem_append, List.mem_cons] at hin
    rw [husedRanges, List.mem_append]
    exact hin.imp_right fun hin => hin.resolve_left hdiffer
  · intro other hother hreturned
    obtain hold | rfl := List.mem_or_eq_of_mem_set hother
    · exact h.unmapped other hold hreturned
    · rfl
  · obtain ⟨front, back, heq, hset, -⟩ := split_at_index hi
    have hapart := h.apart
    rw [heq, List.pairwise_append, List.pairwise_cons] at hapart
    obtain ⟨hfront, ⟨-, hback'⟩, hcross⟩ := hapart
    rw [hset, List.pairwise_append, List.pairwise_cons]
    refine ⟨hfront, ⟨fun b _ hnot => (by cases hnot), hback'⟩, fun a ha b hb hnot hnot' => ?_⟩
    obtain rfl | hb := List.mem_cons.mp hb
    · cases hnot'
    · exact hcross a ha b (List.mem_cons_of_mem _ hb) hnot hnot'

/-- A lease without a range may go. -/
theorem Pool.Ok.dropLease (h : pool.Ok) {i : ℕ} (hi : pool.leases[i]? = some lease)
    (hreturned : lease.rangeReturned = true) :
    { pool with leases := pool.leases.eraseIdx i }.Ok := by
  have hsub := List.eraseIdx_sublist pool.leases i
  refine { h with
    counted := ?_
    range := fun other hmem => h.range other (hsub.subset hmem)
    unmapped := fun other hmem => h.unmapped other (hsub.subset hmem)
    apart := h.apart.sublist hsub }
  obtain ⟨front, back, heq, -, herase⟩ := split_at_index hi
  rw [h.counted, herase, heq]
  simp [hreturned]

/-- A lease that never had a range. -/
theorem Pool.Ok.addReturned (h : pool.Ok) (size alignment : ℕ) {holders : List ℕ} :
    { pool with leases := ⟨0, size, false, true, alignment⟩ :: pool.leases, holders }.Ok := by
  refine { h with
    counted := ?_
    range := ?_
    unmapped := ?_
    apart := .cons (fun _ _ hnot => (by cases hnot)) h.apart }
  · rw [List.countP_cons_of_neg (by simp), h.counted]
  · intro lease hmem hnot
    obtain rfl | hmem := List.mem_cons.mp hmem
    · cases hnot
    · exact h.range lease hmem hnot
  · intro lease hmem hreturned
    obtain rfl | hmem := List.mem_cons.mp hmem
    · rfl
    · exact h.unmapped lease hmem hreturned

/-! ## Acquisition -/

/-- The padded address is aligned. -/
theorem padded_mod {address alignment : ℕ} (halignment : 0 < alignment) :
    (address + if address % alignment = 0 then 0 else alignment - address % alignment) %
      alignment = 0 := by
  split_ifs with hzero
  · exact hzero
  · have hdiv := Nat.div_add_mod address alignment
    have hlt := Nat.mod_lt address halignment
    have hsum : address + (alignment - address % alignment) =
        alignment * (address / alignment) + alignment := by omega
    rw [hsum, Nat.add_mod_right, Nat.mul_mod_right]

theorem alignedAddress_eq_some {base offset alignment aligned : ℕ} (halignment : 0 < alignment)
    (h : alignedAddress base offset alignment = some aligned) :
    (base + aligned) % alignment = 0 := by
  unfold alignedAddress at h
  split_ifs at h
  obtain ⟨-, h⟩ := Option.ite_none_left_eq_some.mp h
  cases h
  rw [← Nat.add_assoc]
  exact padded_mod halignment

/-- A range that fits. -/
theorem fits_eq_some {base alignment size offset : ℕ} {range : Tile} (halignment : 0 < alignment)
    (h : Pool.fits base alignment size range = some offset) :
    range.free = true ∧ range.offset ≤ offset ∧ offset + size ≤ range.offset + range.size ∧
      (base + offset) % alignment = 0 := by
  unfold Pool.fits at h
  split_ifs at h with hfree
  obtain ⟨haligned, hinside⟩ := Option.filter_eq_some_iff.mp h
  simp only [Bool.not_eq_true', Bool.or_eq_false_iff, decide_eq_false_iff_not,
    Nat.not_lt] at hinside
  refine ⟨by simpa using hfree, hinside.1.1, ?_, alignedAddress_eq_some halignment haligned⟩
  omega

/-- A lease has got a range. -/
theorem Pool.Ok.carve (h : pool.Ok) (hreserved : pool.reserved = true) {before behind : List Tile}
    {range : Tile} {offset size alignment : ℕ} (hsplit : pool.ranges = before ++ range :: behind)
    (hfree : range.free = true) (hlo : range.offset ≤ offset)
    (hhi : offset + size ≤ range.offset + range.size) (hsize : 0 < size)
    (haligned : (pool.base + offset) % alignment = 0) (holders : List ℕ) :
    { pool with
      ranges := before ++ (Tiling.carve range offset size ++ behind)
      activeLeases := pool.activeLeases + 1
      lock := none
      leases := ⟨offset, size, true, false, alignment⟩ :: pool.leases
      holders }.Ok := by
  have hused : used (before ++ (Tiling.carve range offset size ++ behind)) =
      used before ++ ⟨offset, size, false⟩ :: used behind := by
    rw [used_append, used_append, used_carve hfree]
    rfl
  have hold : used pool.ranges = used before ++ used behind := by
    rw [hsplit, used_append, used_cons, if_pos hfree]
  have hsub : ∀ tile ∈ used pool.ranges,
      tile ∈ used (before ++ (Tiling.carve range offset size ++ behind)) := by
    intro tile hmem
    rw [hold, List.mem_append] at hmem
    rw [hused, List.mem_append, List.mem_cons]
    exact hmem.imp_right .inr
  have hrange : range ∈ pool.ranges := hsplit ▸ List.mem_append_right _ List.mem_cons_self
  -- A lease that was there has another offset: its range is used and this one was free.
  have hnew : ∀ lease ∈ pool.leases, lease.rangeReturned = false → offset ≠ lease.offset := by
    intro lease hmem hlive heq
    obtain ⟨hmem', -⟩ := h.range lease hmem hlive
    obtain ⟨hrange', hused'⟩ := mem_used.mp hmem'
    obtain hsame | hapart := h.tiles.eq_or_disjoint hrange hrange'
    · rw [hsame, hused'] at hfree
      cases hfree
    · have hpos := (h.tiles.bounds hrange').2.2
      simp only [Lease.range] at hapart hpos
      omega
  refine { h with
    tiles := tiles_carve hlo hhi hsize (hsplit ▸ h.tiles)
    merged := merged_carve hfree (hsplit ▸ h.merged)
    active := ?_
    counted := ?_
    reserved := fun hnot => absurd hreserved (by simp [show pool.reserved = false from hnot])
    range := ?_
    unmapped := ?_
    apart := .cons (fun lease hmem _ hlive => hnew lease hmem hlive) h.apart }
  · rw [hused, h.active, hold]
    simp only [List.length_append, List.length_cons]
    omega
  · rw [List.countP_cons_of_pos (by rfl), h.counted]
  · intro lease hmem hlive
    obtain rfl | hmem := List.mem_cons.mp hmem
    · refine ⟨?_, haligned⟩
      rw [hused]
      exact List.mem_append_right _ List.mem_cons_self
    · obtain ⟨hmem', haligned'⟩ := h.range lease hmem hlive
      exact ⟨hsub _ hmem', haligned'⟩
  · intro lease hmem hreturned
    obtain rfl | hmem := List.mem_cons.mp hmem
    · cases hreturned
    · exact h.unmapped lease hmem hreturned

/-- What the section of an acquisition leaves. -/
structure Acquired (t : ℕ) (pool new : Pool) (kept : Bool) : Prop where
  ok : new.Ok
  gpuNodeId : new.gpuNodeId = pool.gpuNodeId
  lock : new.lock = none
  holders : new.holders = if kept then pool.holders else pool.holders.erase t
  leases : kept = false → new.leases ≠ []

theorem Pool.Ok.abandon {pool : Pool} (h : pool.Ok) (hlock : pool.lock = none) (t : ℕ)
    {size alignment : ℕ} {outcome : AcquireOutcome} :
    Acquired t pool (pool.abandon t size alignment outcome).1
      (pool.abandon t size alignment outcome).2.2 := by
  have hkept : Acquired t pool pool true := ⟨h, rfl, hlock, rfl, by rintro ⟨⟩⟩
  unfold Pool.abandon
  by_cases hcleanup : outcome.message = true ∧ pool.activeLeases = 0
  · rw [if_pos hcleanup]
    obtain ⟨reserved, frees, hframe, -, hfreed, -⟩ := pool.releaseReservation_frame outcome.freed
    have hok := h.releaseReservation hcleanup.2 outcome.freed
    rw [hframe] at hok
    have hpair : pool.releaseReservation outcome.freed =
      ({ pool with reserved, frees }, (pool.releaseReservation outcome.freed).2) := Prod.ext hframe
        rfl
    cases hsuccess : (pool.releaseReservation outcome.freed).2 with
    | true =>
      rw [hpair, hsuccess]
      exact ⟨{ hok with retired := fun _ => hfreed hsuccess }, rfl, hlock, rfl, by rintro ⟨⟩⟩
    | false =>
      rw [hpair, hsuccess]
      dsimp only
      split_ifs
      · exact ⟨hok.addReturned size alignment, rfl, hlock, rfl, fun _ => List.cons_ne_nil _ _⟩
      · exact ⟨hok, rfl, hlock, rfl, by rintro ⟨⟩⟩
  · rw [if_neg hcleanup]
    exact hkept

variable {pool new : Pool}

/-- The section of an acquisition keeps the pool in order. -/
theorem Pool.Ok.acquire (h : pool.Ok) (hreserved : pool.reserved = true) {request : Request}
    (hvalid : request.Valid) {t : ℕ} {outcome : AcquireOutcome} {error : MemoryError} {kept : Bool}
    (hacquire : pool.acquire t request outcome = some (new, error, kept)) :
    Acquired t pool new kept := by
  have hunlocked : Acquired t pool { pool with lock := none } true :=
    ⟨{ h with }, rfl, rfl, rfl, by rintro ⟨⟩⟩
  have hsize : 0 < request.size := Nat.pos_of_ne_zero fun hzero => hvalid (.inr (.inl hzero))
  have halignment : 0 < request.alignment := Nat.pos_of_ne_zero fun hzero =>
    hvalid (.inr (.inr (.inr (.inr (.inr (.inl hzero))))))
  unfold Pool.acquire at hacquire
  cases hfit : firstFit (Pool.fits pool.base request.alignment request.size) pool.ranges with
  | none =>
    rw [hfit] at hacquire
    cases hacquire
    exact hunlocked
  | some found =>
    obtain ⟨before, range, behind, offset⟩ := found
    obtain ⟨hsplit, hfits⟩ := firstFit_eq_some hfit
    obtain ⟨hfree, hlo, hhi, haligned⟩ := fits_eq_some halignment hfits
    rw [hfit] at hacquire
    dsimp only at hacquire
    by_cases hoverflow : addOverflows pool.base offset = true
    · rw [if_pos hoverflow] at hacquire
      cases hacquire
      exact hunlocked
    · rw [if_neg hoverflow] at hacquire
      cases hcarve : carveScratchRange outcome.leaseStored outcome.suffixStored before range behind
          offset request.size with
      | none =>
        rw [hcarve] at hacquire
        cases hacquire
        exact hunlocked
      | some ranges =>
        rw [hcarve] at hacquire
        dsimp only at hacquire
        obtain rfl : before ++ (Tiling.carve range offset request.size ++ behind) = ranges := by
          unfold carveScratchRange at hcarve
          split_ifs at hcarve
          exact Option.some.inj hcarve
        have hcarved := fun holders =>
          h.carve hreserved hsplit hfree hlo hhi hsize haligned holders
        by_cases hmapped : outcome.mapped = true
        · rw [if_pos hmapped] at hacquire
          cases hacquire
          exact ⟨hcarved _, rfl, rfl, rfl, fun _ => List.cons_ne_nil _ _⟩
        · -- The range of a lease that could not be mapped is returned.
          rw [if_neg hmapped] at hacquire
          obtain ⟨ranges, hback, hok⟩ := (hcarved pool.holders).giveBack (i := 0) rfl rfl
          obtain ⟨ranges', hback', hresult⟩ := Option.map_eq_some_iff.mp hacquire
          obtain rfl : ranges = ranges' := Option.some.inj (hback.symm.trans hback')
          have hdropped := hok.dropLease (i := 0) rfl rfl
          have hpool : { pool with ranges, lock := none }.Ok := { hdropped with }
          have habandoned := @Pool.Ok.abandon _ hpool rfl t request.size request.alignment outcome
          rw [hresult] at habandoned
          exact ⟨habandoned.ok, habandoned.gpuNodeId, habandoned.lock, habandoned.holders,
            habandoned.leases⟩

/-! ## Release -/

/-- What the section of a release leaves. -/
structure Released (index : ℕ) (pool new : Pool) (done : Bool) : Prop where
  ok : new.Ok
  gpuNodeId : new.gpuNodeId = pool.gpuNodeId
  lock : new.lock = pool.lock
  holders : new.holders = pool.holders
  reserved : new.reserved = true → pool.reserved = true
  leases : new.leases.length = pool.leases.length
  returned : done = true → ∃ lease, new.leases[index]? = some lease ∧ lease.mapped = false ∧
    lease.rangeReturned = true

variable {index : ℕ}

/-- The end of a release, once the lease has no range. -/
theorem Pool.Ok.finish (h : pool.Ok) (hi : pool.leases[index]? = some lease)
    (hmapped : lease.mapped = false) (hreturned : lease.rangeReturned = true) (freed : Bool) :
    Released index pool (pool.finish freed).1 true := by
  have hlease : ∃ lease, pool.leases[index]? = some lease ∧ lease.mapped = false ∧
    lease.rangeReturned = true := ⟨lease, hi, hmapped, hreturned⟩
  unfold Pool.finish
  by_cases hidle : pool.activeLeases = 0 ∧ pool.reserved = true
  · rw [if_pos hidle]
    obtain ⟨reserved, frees, hframe, hreserved, hfreed, -⟩ := pool.releaseReservation_frame freed
    have hok := h.releaseReservation hidle.1 freed
    rw [hframe] at hok
    have hpair : pool.releaseReservation freed =
      ({ pool with reserved, frees }, (pool.releaseReservation freed).2) := Prod.ext hframe rfl
    cases hsuccess : (pool.releaseReservation freed).2 with
    | true =>
      rw [hpair, hsuccess]
      exact ⟨{ hok with retired := fun _ => hfreed hsuccess }, rfl, rfl, rfl, hreserved, rfl,
        fun _ => hlease⟩
    | false =>
      rw [hpair, hsuccess]
      exact ⟨hok, rfl, rfl, rfl, hreserved, rfl, fun _ => hlease⟩
  · rw [if_neg hidle]
    exact ⟨h, rfl, rfl, rfl, fun hreserved => hreserved, rfl, fun _ => hlease⟩

/-- A lease has returned its range, now or before. -/
theorem Pool.Ok.returnRange {pool returned : Pool} (h : pool.Ok)
    (hi : pool.leases[index]? = some lease) (hreturn : pool.returnRange index lease = some returned)
    :
    returned.Ok ∧ returned.leases = pool.leases.set index lease.returned ∧
      returned.gpuNodeId = pool.gpuNodeId ∧ returned.lock = pool.lock ∧
      returned.holders = pool.holders ∧ returned.reserved = pool.reserved := by
  unfold Pool.returnRange at hreturn
  cases hreturned : lease.rangeReturned with
  | true =>
    rw [if_pos hreturned] at hreturn
    cases hreturn
    have hmapped := h.unmapped lease (List.mem_of_getElem? hi) hreturned
    have hsame : lease.returned = lease := by
      unfold Lease.returned
      rw [← hmapped, ← hreturned]
    obtain ⟨hlt, hget⟩ := List.getElem?_eq_some_iff.mp hi
    have hset : pool.leases.set index lease.returned = pool.leases := by
      rw [hsame, ← hget, List.set_getElem_self]
    refine ⟨?_, rfl, rfl, rfl, rfl, rfl⟩
    rw [hset]
    exact h
  | false =>
    rw [if_neg (by simp [hreturned])] at hreturn
    obtain ⟨ranges, hback, hok⟩ := h.giveBack hi hreturned
    rw [hback] at hreturn
    cases hreturn
    exact ⟨hok, rfl, rfl, rfl, rfl, rfl⟩

/-- The section of a release keeps the pool in order; once the lease is not mapped any more, it has
returned its range. -/
theorem Pool.Ok.release (h : pool.Ok) {unmapped freed : Bool} {error : MemoryError}
    (hrelease : pool.release index unmapped freed = some (new, error)) :
    Released index pool new (decide (error = .none) || unmapped) := by
  unfold Pool.release at hrelease
  cases hi : pool.leases[index]? with
  | none =>
    rw [hi] at hrelease
    cases hrelease
  | some lease =>
    rw [hi] at hrelease
    dsimp only at hrelease
    by_cases hfailed : lease.mapped = true ∧ unmapped = false
    · rw [if_pos hfailed] at hrelease
      cases hrelease
      exact ⟨h, rfl, rfl, rfl, fun hreserved => hreserved, rfl, by simp [hfailed.2]⟩
    · rw [if_neg hfailed] at hrelease
      have hlt : index < pool.leases.length := (List.getElem?_eq_some_iff.mp hi).1
      have hself : (pool.leases.set index lease.returned)[index]? = some lease.returned := by
        rw [List.getElem?_set_self hlt]
      obtain ⟨returned, hreturn, hend⟩ := Option.map_eq_some_iff.mp hrelease
      obtain ⟨hok, hleases, hgpu, hlock, hholders, hreserved⟩ := h.returnRange hi hreturn
      have hidle := hok.finish (hleases ▸ hself) rfl rfl freed
      rw [hend] at hidle
      refine ⟨hidle.ok, hidle.gpuNodeId.trans hgpu, hidle.lock.trans hlock,
        hidle.holders.trans hholders, fun hnew => hreserved ▸ hidle.reserved hnew, ?_,
        fun _ => hidle.returned rfl⟩
      rw [hidle.leases, hleases, List.length_set]

/-- A lease without a mapping and a range may go. -/
theorem Released.forget (h : Released index pool new true) (t : ℕ) :
    (new.forget t index).Ok := by
  obtain ⟨lease, hi, hmapped, hreturned⟩ := h.returned rfl
  have hdropped := h.ok.dropLease hi hreturned
  exact { hdropped with orphans := by simp [Pool.forget, hi, hmapped, h.ok.orphans] }

end LightRocm.Hsakmt
