import LightRocm.Bundle.Manifest

/-!
# Launch configurations of a bundle

`launch_config_from_manifest` computes the grid of a launch from the number of elements.
The runtime makes checks of its own on what it is given.
-/

namespace LightRocm.Bundle

open Launch
open TextSearch (Text)

/-- `launch_config_from_manifest`. -/
def launchConfigFromManifest (manifest : KernelManifest) (n : UInt32) : Parse LaunchConfig :=
  if manifest.block.hasZero then
    throw "bundle launch block dimensions must be non-zero"
  else if kUint16Max < manifest.block.x ∨ kUint16Max < manifest.block.y ∨
      kUint16Max < manifest.block.z then
    throw "bundle launch block dimensions exceed HSA packet limits"
  else if manifest.gridDivisor = 0 ∨ manifest.gridMultiplier = 0 then
    throw "invalid bundle launch configuration"
  else
    let programs := (n.toUInt64 + manifest.gridDivisor.toUInt64 - 1) / manifest.gridDivisor.toUInt64
    let gridX := programs * manifest.gridMultiplier.toUInt64
    if kUint32Max.toUInt64 < gridX then throw "bundle grid size is too large"
    else if gridX = 0 then throw "bundle launch grid dimensions must be non-zero"
    else if gridX < manifest.block.x.toUInt64 then
      throw "bundle launch grid dimensions must cover the workgroup"
    else return ⟨⟨gridX.toUInt32, 1, 1⟩, manifest.block, manifest.sharedMemoryBytes⟩

/-- The size of the grid without machine words. -/
def gridSize (manifest : KernelManifest) (n : ℕ) : ℕ :=
  (n + manifest.gridDivisor.toNat - 1) / manifest.gridDivisor.toNat * manifest.gridMultiplier.toNat

variable {manifest : KernelManifest} {n : UInt32} {config : LaunchConfig}

/-- Neither the rounding up nor the product leaves 64 bits. -/
theorem toNat_gridX (h : manifest.gridDivisor ≠ 0) :
    ((n.toUInt64 + manifest.gridDivisor.toUInt64 - 1) / manifest.gridDivisor.toUInt64 *
      manifest.gridMultiplier.toUInt64).toNat = gridSize manifest n.toNat := by
  have hn := n.toNat_lt
  have hdivisor := manifest.gridDivisor.toNat_lt
  have hmultiplier := manifest.gridMultiplier.toNat_lt
  have hpos : manifest.gridDivisor.toNat ≠ 0 := fun hzero => h (UInt32.toNat_inj.mp hzero)
  have hone : (1 : UInt64).toNat = 1 := rfl
  have hsum : (n.toUInt64 + manifest.gridDivisor.toUInt64 - 1).toNat =
      n.toNat + manifest.gridDivisor.toNat - 1 := by
    rw [UInt64.toNat_sub, UInt64.toNat_add, UInt32.toNat_toUInt64, UInt32.toNat_toUInt64, hone]
    omega
  have hprograms : (n.toNat + manifest.gridDivisor.toNat - 1) / manifest.gridDivisor.toNat ≤
      2 ^ 32 := by
    apply Nat.div_le_of_le_mul
    omega
  rw [UInt64.toNat_mul, UInt64.toNat_div, hsum, UInt32.toNat_toUInt64, UInt32.toNat_toUInt64]
  apply Nat.mod_eq_of_lt
  calc _ ≤ 2 ^ 32 * manifest.gridMultiplier.toNat := Nat.mul_le_mul_right _ hprograms
    _ < 2 ^ 64 := by omega

/-- What is known about a configuration that has been computed. -/
structure Computed (manifest : KernelManifest) (n : UInt32) (config : LaunchConfig) : Prop where
  divisor : manifest.gridDivisor ≠ 0
  block : config.block = manifest.block
  blockNonzero : manifest.block.x ≠ 0 ∧ manifest.block.y ≠ 0 ∧ manifest.block.z ≠ 0
  blockFits : manifest.block.x ≤ kUint16Max ∧ manifest.block.y ≤ kUint16Max ∧
    manifest.block.z ≤ kUint16Max
  gridX : config.grid.x.toNat = gridSize manifest n.toNat
  gridY : config.grid.y = 1
  gridZ : config.grid.z = 1
  gridNonzero : config.grid.x ≠ 0
  covers : manifest.block.x ≤ config.grid.x

/-- Success means that all checks have passed and that the cut to 32 bits has changed nothing. -/
theorem computed_of_launchConfigFromManifest
    (h : launchConfigFromManifest manifest n = .ok config) : Computed manifest n config := by
  unfold launchConfigFromManifest at h
  split_ifs at h with hzero hlarge hexpr
  dsimp only at h
  split_ifs at h with hfits hgrid hcovers
  obtain rfl := Except.ok.inj h
  simp only [Dim3.hasZero, not_or] at hzero hlarge hexpr
  have hvalue := toNat_gridX (n := n) hexpr.1
  generalize (n.toUInt64 + manifest.gridDivisor.toUInt64 - 1) / manifest.gridDivisor.toUInt64 *
    manifest.gridMultiplier.toUInt64 = gridX at *
  have hmax : kUint32Max.toUInt64.toNat = 2 ^ 32 - 1 := rfl
  have hcut : gridX.toUInt32.toNat = gridX.toNat := by
    rw [UInt64.toNat_toUInt32]
    apply Nat.mod_eq_of_lt
    rw [UInt64.not_lt, UInt64.le_iff_toNat_le, hmax] at hfits
    omega
  refine ⟨hexpr.1, rfl, hzero, ⟨UInt32.not_lt.mp hlarge.1, UInt32.not_lt.mp hlarge.2.1,
    UInt32.not_lt.mp hlarge.2.2⟩, hcut.trans hvalue, rfl, rfl, ?_, ?_⟩
  · intro h0
    apply hgrid
    apply UInt64.toNat_inj.mp
    rw [← hcut]
    exact congrArg UInt32.toNat h0
  · rw [UInt32.le_iff_toNat_le]
    rw [UInt64.not_lt, UInt64.le_iff_toNat_le, UInt32.toNat_toUInt64] at hcovers
    exact hcovers.trans hcut.ge

/-- A size that is neither zero nor one. -/
theorem one_lt_of_ne {size : UInt32} (hzero : size ≠ 0) (hone : size ≠ 1) : 1 < size := by
  rw [← UInt32.not_le, UInt32.le_iff_toNat_le]
  intro hle
  rcases Nat.le_one_iff_eq_zero_or_eq_one.mp hle with heq | heq
  · exact hzero (UInt32.toNat_inj.mp heq)
  · exact hone (UInt32.toNat_inj.mp heq)

/-- The runtime goes on with a computed configuration if its block is flat, and refuses it
otherwise. -/
theorem Computed.launchImpl {Sig : Type} (h : Computed manifest n config) (backend : Backend)
    (kernel : Kernel) {argsSize : ℕ} (hargs : argsSize ≠ 0) (around : Surroundings Sig) :
    launchImpl backend kernel config argsSize around =
      if manifest.block.y = 1 ∧ manifest.block.z = 1 then
        submit backend kernel config argsSize around
      else .error .invalidArgument := by
  have hx := UInt32.not_lt.mpr h.covers
  have hfits := UInt32.not_lt.mpr h.blockFits.1
  have hone : ¬ kUint16Max < 1 := by decide
  have hzero : (1 : UInt32) ≠ 0 := by decide
  unfold Launch.launchImpl
  by_cases hflat : manifest.block.y = 1 ∧ manifest.block.z = 1
  · obtain ⟨hy, hz⟩ := hflat
    simp only [LaunchConfig.Invalid, h.block, h.gridY, h.gridZ, hy, hz, h.blockNonzero.1,
      h.gridNonzero, hargs, hx, hfits, hone, hzero, Dim3.hasZero, UInt32.lt_irrefl, or_self,
      and_self, if_false, if_true]
  · have hrefused : config.grid.x < config.block.x ∨ config.grid.y < config.block.y ∨
        config.grid.z < config.block.z := by
      rw [h.block, h.gridY, h.gridZ]
      rcases not_and_or.mp hflat with hy | hz
      · exact .inr (.inl (one_lt_of_ne h.blockNonzero.2.1 hy))
      · exact .inr (.inr (one_lt_of_ne h.blockNonzero.2.2 hz))
    rw [if_neg hflat, if_pos (.inr (.inr (.inl hrefused)))]

/-- The grid that is computed is the one of the expression. It has a work-item for every element
exactly if there are not more elements than the expression says, and it is launched exactly if
the block is flat. -/
theorem launch_config_covers {Sig : Type}
    (h : launchConfigFromManifest manifest n = .ok config) :
    config.grid.x.toNat = gridSize manifest n.toNat ∧
    (n.toNat ≤ config.grid.x.toNat * config.grid.y.toNat * config.grid.z.toNat ↔
      n.toNat ≤ gridSize manifest n.toNat) ∧
    ∀ (backend : Backend) (kernel : Kernel) (argsSize : ℕ) (around : Surroundings Sig),
      argsSize ≠ 0 → launchImpl backend kernel config argsSize around =
        if manifest.block.y = 1 ∧ manifest.block.z = 1 then
          submit backend kernel config argsSize around
        else .error .invalidArgument := by
  have hcomputed := computed_of_launchConfigFromManifest h
  refine ⟨hcomputed.gridX, ?_, fun backend kernel _ around hargs =>
    hcomputed.launchImpl backend kernel hargs around⟩
  have hone : (1 : UInt32).toNat = 1 := rfl
  rw [hcomputed.gridY, hcomputed.gridZ, hone, mul_one, mul_one, hcomputed.gridX]

/-- A manifest of one kernel with one argument, with the block and the grid expression given. -/
def oneArgumentText (block : List Text) (grid : String) : Text :=
  oneKernelText [argumentText "x" ['0'] ['8']] ['8'] block grid

/-- The kernel of such a manifest. -/
def oneArgument (block : Dim3) (divisor multiplier : UInt32) : KernelManifest where
  manifestVersion := 1
  target := ['g']
  name := ['k']
  symbol := ['s']
  codeObject := ['c']
  block := block
  gridDivisor := divisor
  gridMultiplier := multiplier
  kernargSize := 8
  sharedMemoryBytes := 0
  workspaceBytes := 0
  args := [⟨['x'], ['i'], 0, 8, false⟩]
  argOffsets := [0]

/-- Two work-items for three elements, which are enough for four. -/
theorem launch_config_covers_four :
    parseBundleManifests (oneArgumentText [['2'], ['1'], ['1']] "ceil_div(n, 3) * 2") =
      .ok [oneArgument ⟨2, 1, 1⟩ 3 2] ∧
    launchConfigFromManifest (oneArgument ⟨2, 1, 1⟩ 3 2) 4 = .ok ⟨⟨4, 1, 1⟩, ⟨2, 1, 1⟩, 0⟩ ∧
    (4 : UInt32).toNat ≤ (4 : UInt32).toNat * (1 : UInt32).toNat * (1 : UInt32).toNat :=
  have h : launchConfigFromManifest (oneArgument ⟨2, 1, 1⟩ 3 2) 4 =
    .ok ⟨⟨4, 1, 1⟩, ⟨2, 1, 1⟩, 0⟩ := by rfl
  ⟨by decide +kernel, h, (@launch_config_covers _ _ _ Unit h).2.1.mpr (by decide)⟩

/-- A manifest whose block has two rows is accepted and gives a configuration, but no backend
launches it; and with two elements a program and one work-item for it the grid has too few. -/
theorem launch_config_refused_or_short :
    (∃ manifest config,
      parseBundleManifests (oneArgumentText [['1'], ['2'], ['1']] "ceil_div(n, 1) * 1") =
        .ok [manifest] ∧
      launchConfigFromManifest manifest 1 = .ok config ∧
      ∀ (backend : Backend) (kernel : Kernel) (argsSize : ℕ) (around : Surroundings Unit),
        launchImpl backend kernel config argsSize around = .error .invalidArgument) ∧
    (∃ manifest config,
      parseBundleManifests (oneArgumentText [['1'], ['1'], ['1']] "ceil_div(n, 2) * 1") =
        .ok [manifest] ∧
      launchConfigFromManifest manifest 2 = .ok config ∧
      config.grid.x.toNat * config.grid.y.toNat * config.grid.z.toNat < 2) := by
  refine ⟨⟨oneArgument ⟨1, 2, 1⟩ 1 1, ⟨⟨1, 1, 1⟩, ⟨1, 2, 1⟩, 0⟩, by decide +kernel, rfl, ?_⟩,
    ⟨oneArgument ⟨1, 1, 1⟩ 2 1, ⟨⟨1, 1, 1⟩, ⟨1, 1, 1⟩, 0⟩, by decide +kernel, rfl, by decide⟩⟩
  intro backend kernel argsSize around
  exact if_pos (.inr (.inr (.inl (by decide))))

end LightRocm.Bundle
