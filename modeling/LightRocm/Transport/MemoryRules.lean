import LightRocm.Transport.Calls
import LightRocm.Transport.Memory

/-!
# Rules for mapping

`map_memory` as one step: either it does nothing, or it makes one call to the driver
and records the progress it reports. The checks of that progress never fail, since
the driver keeps it within bounds.
-/

namespace LightRocm.Transport

open Program

section Rules

variable {kernel : Kernel} {owner : Name} {allocation : RawMemoryAllocation}
  {Post : MemoryStatus × RawMemoryAllocation → Kernel → Prop}

/-- The state after `map_memory` has reached a device. -/
def RawMemoryAllocation.mappedUpTo (allocation : RawMemoryAllocation) (reached : ℕ)
    (complete : Bool) : RawMemoryAllocation :=
  { allocation with mappedDeviceCount := reached, mapComplete := complete }

/-- The devices of an allocation from one position up to another. -/
def RawMemoryAllocation.devices (allocation : RawMemoryAllocation) (first last : ℕ) : List ℕ :=
  (allocation.gpuIds.take last).drop first

/-- Map the pending devices of an allocation. -/
theorem ensures_mapMemory (hfail : ∀ failure, Post (some failure, allocation) kernel)
    (hdone : allocation.gpuMapped = true → Post (none, allocation) kernel)
    (hcall : allocation.handle ≠ 0 → allocation.gpuIds ≠ [] → allocation.gpuMapped = false →
      allocation.unmappedDeviceCount = 0 → ∀ reached status,
      allocation.mappedDeviceCount ≤ reached → reached ≤ allocation.gpuIds.length →
      (status = none → reached = allocation.gpuIds.length) →
      Post (status, allocation.mappedUpTo reached status.isNone)
        (kernel.advance.updateBuffer allocation.handle fun mapped =>
          mapped ++ allocation.devices allocation.mappedDeviceCount reached)) :
    (mapMemory allocation.gpuIds allocation).Ensures kernel Post := by
  unfold mapMemory
  apply Ensures.ite
  · intro _
    exact hfail _
  intro hhandle
  apply Ensures.ite
  · intro _
    exact hfail _
  intro hids
  have hids' : allocation.gpuIds ≠ [] := fun h => hids (Or.inl h)
  apply Ensures.ite
  · intro hcheck
    obtain ⟨failure, hfailure⟩ := Option.ne_none_iff_exists'.mp hcheck
    rw [hfailure]
    exact hfail _
  intro _
  rw [if_neg hids']
  apply Ensures.seq
  apply Ensures.pure
  apply Ensures.ite
  · rintro ⟨⟩
  intro _
  apply Ensures.ite
  · intro _
    exact hfail _
  intro hpending
  have hunmapped : allocation.unmappedDeviceCount = 0 := by
    by_contra hne
    exact hpending ⟨hids', Or.inr hne⟩
  apply Ensures.ite
  · intro _
    exact hfail _
  intro hle
  have hmapped : allocation.gpuMapped = true ↔
      allocation.mappedDeviceCount = allocation.gpuIds.length ∧ allocation.mapComplete = true := by
    simp [RawMemoryAllocation.gpuMapped, hunmapped, hids', and_comm]
  apply Ensures.ite
  · intro hcomplete
    exact hdone (hmapped.mpr hcomplete)
  intro hpending'
  have hnotMapped : allocation.gpuMapped = false :=
    Bool.eq_false_iff.mpr fun htrue => hpending' (hmapped.mp htrue)
  apply Ensures.seq
  apply ensures_mapMemoryToGpu
  intro reached hreached
  obtain ⟨hfirst, hlast⟩ := attempts_bounds (not_lt.mp hle) kernel.answer
  rw [← hreached] at hfirst hlast
  apply Ensures.ite
  · intro hlt
    exact absurd hlast (not_le.mpr hlt)
  intro _
  apply Ensures.ite
  · intro hlt
    exact absurd hfirst (not_le.mpr hlt)
  intro _
  have hstep := hcall hhandle hids' hnotMapped hunmapped reached
  apply Ensures.ite
  · intro _
    exact hstep (some _) hfirst hlast (by rintro ⟨⟩)
  intro _
  apply Ensures.ite
  · intro _
    exact hstep (some _) hfirst hlast (by rintro ⟨⟩)
  intro hall
  exact hstep none hfirst hlast fun _ => not_not.mp hall

end Rules

end LightRocm.Transport
