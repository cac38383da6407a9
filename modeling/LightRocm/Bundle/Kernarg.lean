import LightRocm.Bundle.Manifest
import LightRocm.Lib.ByteMemory

/-!
# Argument buffers of a bundle

`KernargBuffer` writes the arguments of a launch at the offsets the manifest gives.
The checks of the manifest order the offsets, but not the ends of the arguments.
-/

namespace LightRocm.Bundle

open ByteMemory Checked
open TextSearch (Text)

/-! ## What an accepted manifest satisfies -/

/-- The checks a kernel has passed when it is accepted. -/
structure Accepted (manifest : KernelManifest) : Prop where
  args : manifest.args ≠ []
  valid : validateArgs manifest.args manifest.kernargSize = .ok ()
  kernargSize : manifest.kernargSize ≠ 0

theorem accepted_of_parseKernel {text : Text} {version : UInt32} {target : Text}
    {kernelBegin kernelEnd : ℕ} {manifest : KernelManifest}
    (h : parseKernel text version target kernelBegin kernelEnd = .ok manifest) :
    Accepted manifest := by
  unfold parseKernel at h
  obtain ⟨name, -, h⟩ := bind_eq_ok.mp h
  obtain ⟨symbol, -, h⟩ := bind_eq_ok.mp h
  obtain ⟨codeObject, -, h⟩ := bind_eq_ok.mp h
  obtain ⟨-, -, h⟩ := bind_eq_ok.mp h
  obtain ⟨kernargSize, -, h⟩ := bind_eq_ok.mp h
  obtain ⟨sharedMemoryBytes, -, h⟩ := bind_eq_ok.mp h
  obtain ⟨-, -, h⟩ := bind_eq_ok.mp h
  obtain ⟨workspaceBytes, -, h⟩ := bind_eq_ok.mp h
  obtain ⟨block, -, h⟩ := bind_eq_ok.mp h
  obtain ⟨⟨divisor, multiplier⟩, -, h⟩ := bind_eq_ok.mp h
  obtain ⟨args, hargs, h⟩ := bind_eq_ok.mp h
  obtain ⟨⟨⟩, hvalid, h⟩ := bind_eq_ok.mp h
  obtain ⟨⟨⟩, hnonzero, h⟩ := bind_eq_ok.mp h
  obtain rfl := Except.ok.inj h
  rw [refuse_eq_ok] at hnonzero
  push Not at hnonzero
  refine ⟨?_, hvalid, hnonzero.2.2.1⟩
  unfold readArgs at hargs
  obtain ⟨position, -, hargs⟩ := bind_eq_ok.mp hargs
  obtain ⟨-, -, hargs⟩ := bind_eq_ok.mp hargs
  obtain ⟨found, -, hargs⟩ := bind_eq_ok.mp hargs
  obtain ⟨⟨⟩, hempty, hargs⟩ := bind_eq_ok.mp hargs
  obtain rfl := Except.ok.inj hargs
  exact refuse_eq_ok.mp hempty

/-- The loop over the kernels only adds accepted ones. -/
theorem accepted_of_parseKernelsFrom {text : Text} {version : UInt32} {target : Text}
    {remaining position position' : ℕ} {manifests manifests' : List KernelManifest}
    (h : parseKernelsFrom text version target remaining position manifests =
      .ok (position', manifests')) (hall : ∀ manifest ∈ manifests, Accepted manifest) :
    ∀ manifest ∈ manifests', Accepted manifest := by
  induction remaining generalizing position manifests with
  | zero =>
    obtain ⟨-, rfl⟩ := Prod.mk.inj (Except.ok.inj h)
    exact hall
  | succ remaining ih =>
    unfold parseKernelsFrom at h
    split at h
    · obtain ⟨-, rfl⟩ := Prod.mk.inj (Except.ok.inj h)
      exact hall
    · obtain ⟨-, -, h⟩ := bind_eq_ok.mp h
      obtain ⟨kernelEnd, -, h⟩ := bind_eq_ok.mp h
      obtain ⟨manifest, hkernel, h⟩ := bind_eq_ok.mp h
      obtain ⟨-, -, h⟩ := bind_eq_ok.mp h
      obtain ⟨next, -, h⟩ := bind_eq_ok.mp h
      apply ih h
      intro other hother
      rcases List.mem_append.mp hother with hold | hnew
      · exact hall other hold
      · obtain rfl := List.mem_singleton.mp hnew
        exact accepted_of_parseKernel (mapError_eq_ok.mp hkernel)

/-- Every kernel of an accepted manifest has passed the checks. -/
theorem accepted_of_parseBundleManifests {text : Text} {manifests : List KernelManifest}
    (h : parseBundleManifests text = .ok manifests) :
    ∀ manifest ∈ manifests, Accepted manifest := by
  unfold parseBundleManifests at h
  split at h
  · cases h
  unfold parseKernels at h
  obtain ⟨-, -, h⟩ := bind_eq_ok.mp h
  obtain ⟨rootEnd, -, h⟩ := bind_eq_ok.mp h
  obtain ⟨_, -, h⟩ := bind_eq_ok.mp h
  obtain ⟨version, -, h⟩ := bind_eq_ok.mp h
  obtain ⟨-, -, h⟩ := bind_eq_ok.mp h
  obtain ⟨target, -, h⟩ := bind_eq_ok.mp h
  obtain ⟨-, -, h⟩ := bind_eq_ok.mp h
  obtain ⟨_, -, h⟩ := bind_eq_ok.mp h
  obtain ⟨-, -, h⟩ := bind_eq_ok.mp h
  obtain ⟨⟨position, found⟩, hkernels, h⟩ := bind_eq_ok.mp h
  obtain ⟨-, -, h⟩ := bind_eq_ok.mp h
  obtain rfl := Except.ok.inj h
  apply accepted_of_parseKernelsFrom hkernels
  simp

/-! ## The slots -/

/-- The end of an argument's slot. -/
def KernelArgument.slotEnd (arg : KernelArgument) : ℕ := arg.offset.toNat + arg.size.toNat

/-- The address lies in the slot of an argument. -/
def KernelArgument.Slot (arg : KernelArgument) (address : ℕ) : Prop :=
  InRange arg.offset.toNat arg.size.toNat address

instance (arg : KernelArgument) (address : ℕ) : Decidable (arg.Slot address) :=
  inferInstanceAs (Decidable (InRange _ _ _))

/-- What the loop has checked: no argument is empty, each ends in the buffer as far as 64 bits
can tell, and the offsets increase. -/
structure Validated (kernargSize : UInt64) (args : List KernelArgument) : Prop where
  size_ne : ∀ arg ∈ args, arg.size ≠ 0
  end_le : ∀ arg ∈ args, arg.offset + arg.size ≤ kernargSize
  increasing : args.IsChain fun arg next => arg.offset < next.offset

theorem validated_of_validateArgsFrom {kernargSize previous : UInt64}
    {earlier args : List KernelArgument}
    (h : validateArgsFrom kernargSize earlier previous args = .ok ()) :
    Validated kernargSize args ∧
      (0 < earlier.length → ∀ arg ∈ args.head?, previous < arg.offset) := by
  induction args generalizing earlier previous with
  | nil => exact ⟨⟨by simp, by simp, .nil⟩, by simp⟩
  | cons arg rest ih =>
    unfold validateArgsFrom at h
    obtain ⟨⟨⟩, hsize, h⟩ := bind_eq_ok.mp h
    obtain ⟨⟨⟩, hrange, h⟩ := bind_eq_ok.mp h
    obtain ⟨⟨⟩, horder, h⟩ := bind_eq_ok.mp h
    obtain ⟨⟨⟩, -, h⟩ := bind_eq_ok.mp h
    simp only [refuse_eq_ok, not_or, not_and, UInt64.not_lt, UInt64.not_le] at hsize hrange horder
    obtain ⟨hrest, hnext⟩ := ih h
    refine ⟨⟨List.forall_mem_cons.mpr ⟨hsize.2.2, hrest.size_ne⟩,
      List.forall_mem_cons.mpr ⟨hrange.2.2, hrest.end_le⟩,
      List.isChain_cons.mpr ⟨hnext (by simp), hrest.increasing⟩⟩, ?_⟩
    simpa using horder

/-- The arguments lie one behind the other. -/
def Chained (args : List KernelArgument) : Prop :=
  args.IsChain fun arg next => arg.slotEnd ≤ next.offset.toNat

variable {args : List KernelArgument}

/-- Then any two of them are apart. -/
theorem Chained.pairwise (h : Chained args) :
    args.Pairwise fun arg later => arg.slotEnd ≤ later.offset.toNat := by
  have htrans : IsTrans KernelArgument fun arg later => arg.slotEnd ≤ later.offset.toNat := by
    constructor
    intro a b c hab hbc
    unfold KernelArgument.slotEnd at *
    omega
  exact List.IsChain.pairwise h

/-- No address lies in the slots of two arguments. -/
theorem Chained.disjoint (h : Chained args) {i j address : ℕ} {arg other : KernelArgument}
    (hi : args[i]? = some arg) (hj : args[j]? = some other) (hne : i ≠ j) (harg : arg.Slot address)
    : ¬ other.Slot address := by
  have hpairwise := List.pairwise_iff_getElem.mp h.pairwise
  obtain ⟨hilt, hiarg⟩ := List.getElem?_eq_some_iff.mp hi
  obtain ⟨hjlt, hjother⟩ := List.getElem?_eq_some_iff.mp hj
  unfold KernelArgument.Slot InRange at *
  rcases Nat.lt_or_gt_of_ne hne with hlt | hgt
  · have hends := hpairwise i j hilt hjlt hlt
    rw [hiarg, hjother] at hends
    unfold KernelArgument.slotEnd at hends
    omega
  · have hends := hpairwise j i hjlt hilt hgt
    rw [hiarg, hjother] at hends
    unfold KernelArgument.slotEnd at hends
    omega

/-! ## The buffer -/

/-- `lrrt::KernargBuffer`; `memory` has what lies from the first byte of the buffer on. -/
structure KernargBuffer where
  size : UInt64
  memory : Memory
  args : List KernelArgument
  bound : List Bool

/-- The constructor fills the buffer with zeros; behind it lies what has been there. -/
def KernargBuffer.make (manifest : KernelManifest) (behind : Memory) : Parse KernargBuffer := do
  refuse (manifest.kernargSize = 0 ∨ manifest.args = []) "invalid bundle kernarg layout"
  return { size := manifest.kernargSize
           memory := fun address => if address < manifest.kernargSize.toNat then 0 else behind address
           args := manifest.args
           bound := manifest.args.map fun _ => false }

/-- `set_raw` with an index. -/
def KernargBuffer.setRaw (buffer : KernargBuffer) (index : ℕ) (value : List UInt8) :
    Parse KernargBuffer :=
  match buffer.args[index]? with
  | none => throw "bundle kernarg index is out of range"
  | some arg => do
    refuse (buffer.size < arg.offset ∨ buffer.size < arg.size ∨ buffer.size < arg.offset + arg.size)
      "invalid bundle kernarg offset"
    refuse (arg.size.toNat < value.length) "bundle kernarg value exceeds argument slot"
    return { buffer with
      memory := write buffer.memory arg.offset.toNat value
      bound := buffer.bound.set index true }

/-- `set_raw` with a name. -/
def KernargBuffer.setRawNamed (buffer : KernargBuffer) (name : Text) (value : List UInt8) :
    Parse KernargBuffer := do
  refuse (name = []) "bundle kernarg name is empty"
  match buffer.args.findIdx? (·.name = name) with
  | none => throw ("bundle kernarg not found: " ++ String.ofList name)
  | some index => buffer.setRaw index value

/-- The loop of `bind_optional_nulls`. When it throws, what has been bound before stays bound. -/
def KernargBuffer.bindOptionalNullsFrom (buffer : KernargBuffer) :
    List (KernelArgument × ℕ) → KernargBuffer × Parse Unit
  | [] => (buffer, return ())
  | (arg, index) :: rest =>
    if !arg.optional || buffer.bound.getD index false then buffer.bindOptionalNullsFrom rest
    else if arg.type ≠ "ptr".toList then
      (buffer, throw ("optional null binding requires ptr argument: " ++ String.ofList arg.name))
    else match buffer.setRaw index (List.replicate 8 0) with
      | .ok next => next.bindOptionalNullsFrom rest
      | .error message => (buffer, throw message)

/-- `bind_optional_nulls`. -/
def KernargBuffer.bindOptionalNulls (buffer : KernargBuffer) : KernargBuffer × Parse Unit :=
  buffer.bindOptionalNullsFrom buffer.args.zipIdx

/-- A call that sets one argument. -/
inductive SetCall where
  | atIndex (index : ℕ) (value : List UInt8)
  | named (name : Text) (value : List UInt8)

/-- The argument a call sets. -/
def SetCall.target (args : List KernelArgument) : SetCall → Option ℕ
  | .atIndex index _ => some index
  | .named name _ => args.findIdx? (·.name = name)

/-- The call on a buffer. -/
def KernargBuffer.set (buffer : KernargBuffer) : SetCall → Parse KernargBuffer
  | .atIndex index value => buffer.setRaw index value
  | .named name value => buffer.setRawNamed name value

/-- The buffers that a sequence of calls makes of a new one. A call that throws leaves the buffer
as it is, apart from `bind_optional_nulls`. -/
inductive Reached (manifest : KernelManifest) (behind : Memory) : KernargBuffer → Prop
  | make {buffer : KernargBuffer} : KernargBuffer.make manifest behind = .ok buffer →
      Reached manifest behind buffer
  | set {buffer next : KernargBuffer} {call : SetCall} : Reached manifest behind buffer →
      buffer.set call = .ok next → Reached manifest behind next
  | bindOptionalNulls {buffer : KernargBuffer} : Reached manifest behind buffer →
      Reached manifest behind buffer.bindOptionalNulls.1

variable {manifest : KernelManifest} {behind : Memory} {buffer next : KernargBuffer}

/-- What a call that sets an argument does: it writes into the slot of the argument. -/
theorem setRaw_spec {index : ℕ} {value : List UInt8} (h : buffer.setRaw index value = .ok next) :
    next.size = buffer.size ∧ next.args = buffer.args ∧ ∃ arg, buffer.args[index]? = some arg ∧
      value.length ≤ arg.size.toNat ∧ next.memory = write buffer.memory arg.offset.toNat value := by
  unfold KernargBuffer.setRaw at h
  split at h
  · cases h
  · rename_i arg harg
    obtain ⟨⟨⟩, -, h⟩ := bind_eq_ok.mp h
    obtain ⟨⟨⟩, hfits, h⟩ := bind_eq_ok.mp h
    obtain rfl := Except.ok.inj h
    exact ⟨rfl, rfl, arg, harg, Nat.le_of_not_lt (refuse_eq_ok.mp hfits), rfl⟩

/-- A call by name is a call with the index of the argument. -/
theorem set_eq_setRaw {call : SetCall} (h : buffer.set call = .ok next) :
    ∃ index value, call.target buffer.args = some index ∧ buffer.setRaw index value = .ok next := by
  cases call with
  | atIndex index value => exact ⟨index, value, rfl, h⟩
  | named name value =>
    obtain ⟨⟨⟩, -, h⟩ := bind_eq_ok.mp h
    split at h
    · cases h
    · rename_i index hindex
      exact ⟨index, value, hindex, h⟩

/-- Layout and size of a buffer are those of the manifest. -/
structure Laid (manifest : KernelManifest) (buffer : KernargBuffer) : Prop where
  size : buffer.size = manifest.kernargSize
  args : buffer.args = manifest.args

theorem Laid.setRaw {index : ℕ} {value : List UInt8} (h : Laid manifest buffer)
    (hset : buffer.setRaw index value = .ok next) : Laid manifest next := by
  obtain ⟨hsize, hargs, -⟩ := setRaw_spec hset
  exact ⟨hsize.trans h.size, hargs.trans h.args⟩

theorem Laid.bindOptionalNullsFrom {indexed : List (KernelArgument × ℕ)}
    (h : Laid manifest buffer) : Laid manifest (buffer.bindOptionalNullsFrom indexed).1 := by
  induction indexed generalizing buffer with
  | nil => exact h
  | cons entry rest ih =>
    unfold KernargBuffer.bindOptionalNullsFrom
    split
    · exact ih h
    · split
      · exact h
      · split
        · exact ih (h.setRaw ‹_›)
        · exact h

/-- No sequence of calls changes the layout. -/
theorem Reached.laid (h : Reached manifest behind buffer) : Laid manifest buffer := by
  induction h with
  | make hmake =>
    unfold KernargBuffer.make at hmake
    obtain ⟨⟨⟩, -, hmake⟩ := bind_eq_ok.mp hmake
    obtain rfl := Except.ok.inj hmake
    exact ⟨rfl, rfl⟩
  | set _ hset ih =>
    obtain ⟨index, value, -, hraw⟩ := set_eq_setRaw hset
    exact ih.setRaw hraw
  | bindOptionalNulls _ ih => exact ih.bindOptionalNullsFrom

/-- Every slot lies in the buffer, no two have an address in common, and after every sequence of
calls a call that sets an argument changes no byte of another one and none behind the buffer. -/
structure SlotsKept (manifest : KernelManifest) : Prop where
  inside : ∀ arg ∈ manifest.args, arg.slotEnd ≤ manifest.kernargSize.toNat
  apart : ∀ (i j address : ℕ) (arg other : KernelArgument), manifest.args[i]? = some arg →
    manifest.args[j]? = some other → i ≠ j → arg.Slot address → ¬ other.Slot address
  kept : ∀ (behind : Memory) (buffer next : KernargBuffer) (call : SetCall),
    Reached manifest behind buffer → buffer.set call = .ok next →
    ∃ i, call.target manifest.args = some i ∧
      ∀ address, next.memory address ≠ buffer.memory address →
        address < manifest.kernargSize.toNat ∧
        ∀ (j : ℕ) (other : KernelArgument), manifest.args[j]? = some other → i ≠ j →
          ¬ other.Slot address

/-- Where no sum wraps around, the slots lie in the buffer. -/
theorem Validated.slotEnd_le {kernargSize : UInt64} (h : Validated kernargSize args)
    {arg : KernelArgument} (harg : arg ∈ args) (hsum : arg.slotEnd < 2 ^ 64) :
    arg.slotEnd ≤ kernargSize.toNat := by
  have hle := UInt64.le_iff_toNat_le.mp (h.end_le arg harg)
  rw [UInt64.toNat_add] at hle
  exact (Nat.mod_eq_of_lt hsum).ge.trans hle

/-- Arguments that are apart lie one behind the other, since their offsets increase. -/
theorem Validated.chained (h : Validated manifest.kernargSize manifest.args)
    (hkept : SlotsKept manifest) : Chained manifest.args := by
  refine List.isChain_iff_getElem.mpr fun i hi => ?_
  have hlt := UInt64.lt_iff_toNat_lt.mp (List.isChain_iff_getElem.mp h.increasing i hi)
  have hsize : (manifest.args[i + 1]).size.toNat ≠ 0 := fun hzero =>
    h.size_ne _ (List.getElem_mem hi) (UInt64.toNat_inj.mp hzero)
  by_contra hover
  unfold KernelArgument.slotEnd at hover
  refine hkept.apart i (i + 1) (manifest.args[i + 1]).offset.toNat _ _
    (List.getElem?_eq_getElem (by omega)) (List.getElem?_eq_getElem hi) (by omega) ?_ ?_ <;>
    unfold KernelArgument.Slot InRange <;> omega

/-- The slots of a kernel of an accepted manifest are kept exactly if no argument ends at or
behind 2^64 and every argument ends before the next one begins. -/
theorem kernarg_slots_kept {text : Text} {manifests : List KernelManifest}
    (haccept : parseBundleManifests text = .ok manifests) (hmanifest : manifest ∈ manifests) :
    SlotsKept manifest ↔
      (∀ arg ∈ manifest.args, arg.slotEnd < 2 ^ 64) ∧ Chained manifest.args := by
  have hvalid := (validated_of_validateArgsFrom
    (accepted_of_parseBundleManifests haccept manifest hmanifest).valid).1
  refine ⟨fun hkept => ⟨fun arg harg => (hkept.inside arg harg).trans_lt (UInt64.toNat_lt _),
    hvalid.chained hkept⟩, fun ⟨hsums, hchained⟩ => ?_⟩
  have hends : ∀ arg ∈ manifest.args, arg.slotEnd ≤ manifest.kernargSize.toNat :=
    fun arg harg => hvalid.slotEnd_le harg (hsums arg harg)
  refine ⟨hends, fun i j address arg other hi hj => hchained.disjoint hi hj, ?_⟩
  intro behind buffer next call hreached hset
  have hlaid := hreached.laid
  obtain ⟨i, value, htarget, hraw⟩ := set_eq_setRaw hset
  obtain ⟨-, -, arg, harg, hlength, hmemory⟩ := setRaw_spec hraw
  rw [hlaid.args] at htarget harg
  refine ⟨i, htarget, ?_⟩
  intro address hchanged
  rw [hmemory] at hchanged
  have hslot : arg.Slot address := by
    obtain ⟨hstart, hend⟩ := inRange_of_write_ne hchanged
    exact ⟨hstart, by omega⟩
  constructor
  · have hend := hends arg (List.mem_of_getElem? harg)
    exact hslot.2.trans_le hend
  · intro j other hother hne
    exact hchained.disjoint harg hother hne hslot

/-- A manifest whose kernel has the arguments given, with a block of one work-item. -/
def argumentsText (args : List Text) (kernargSize : Text) : Text :=
  oneKernelText args kernargSize [['1'], ['1'], ['1']] "ceil_div(n, 1) * 1"

/-- The kernel of such a manifest. -/
def withArguments (args : List KernelArgument) (kernargSize : UInt64) : KernelManifest where
  manifestVersion := 1
  target := ['g']
  name := ['k']
  symbol := ['s']
  codeObject := ['c']
  block := ⟨1, 1, 1⟩
  gridDivisor := 1
  gridMultiplier := 1
  kernargSize := kernargSize
  sharedMemoryBytes := 0
  workspaceBytes := 0
  args := args
  argOffsets := args.map (·.offset)

/-- The first of two arguments is set in a new buffer. -/
theorem kernarg_slots_kept_two :
    ∃ buffer next : KernargBuffer,
      KernargBuffer.make (withArguments [⟨['x'], ['i'], 0, 8, false⟩, ⟨['y'], ['i'], 8, 8, false⟩] 16)
        (fun _ => 7) = .ok buffer ∧
      buffer.set (.named ['x'] (List.replicate 8 1)) = .ok next ∧
      ∀ address, next.memory address ≠ buffer.memory address → address < 16 := by
  have hparse : parseBundleManifests (argumentsText [argumentText "x" ['0'] ['8'],
      argumentText "y" ['8'] ['8']] ['1', '6']) =
      .ok [withArguments [⟨['x'], ['i'], 0, 8, false⟩, ⟨['y'], ['i'], 8, 8, false⟩] 16] := by
    decide +kernel
  have hchained : Chained (withArguments
      [⟨['x'], ['i'], 0, 8, false⟩, ⟨['y'], ['i'], 8, 8, false⟩] 16).args :=
    List.isChain_pair.mpr (by decide)
  refine ⟨_, _, rfl, rfl, ?_⟩
  intro address hchanged
  have hkept := (kernarg_slots_kept hparse (List.mem_singleton_self _)).mpr ⟨by decide, hchained⟩
  obtain ⟨i, -, h⟩ :=
    hkept.kept (fun _ => 7) _ _ (.named ['x'] (List.replicate 8 1)) (.make rfl) rfl
  exact (h address hchanged).1

/-- Two arguments of an accepted manifest overlap, and setting the first changes a byte of the
second; and an argument of an accepted manifest ends behind the buffer. -/
theorem kernarg_slots_overlap :
    (∃ (manifest : KernelManifest) (other : KernelArgument) (buffer next : KernargBuffer),
      parseBundleManifests (argumentsText [argumentText "x" ['0'] ['1', '6'],
        argumentText "y" ['8'] ['8']] ['1', '6']) = .ok [manifest] ∧
      KernargBuffer.make manifest (fun _ => 0) = .ok buffer ∧
      buffer.set (.atIndex 0 (List.replicate 16 1)) = .ok next ∧
      manifest.args[1]? = some other ∧ other.Slot 8 ∧ next.memory 8 ≠ buffer.memory 8) ∧
    (∃ (manifest : KernelManifest) (arg : KernelArgument),
      parseBundleManifests (argumentsText [argumentText "x" "18446744073709551614".toList ['3']]
        "18446744073709551615".toList) = .ok [manifest] ∧
      arg ∈ manifest.args ∧ manifest.kernargSize.toNat < arg.slotEnd) := by
  constructor
  · exact ⟨withArguments [⟨['x'], ['i'], 0, 16, false⟩, ⟨['y'], ['i'], 8, 8, false⟩] 16, _, _, _,
      by decide +kernel, rfl, rfl, rfl, by decide, by decide⟩
  · exact ⟨withArguments [⟨['x'], ['i'], 18446744073709551614, 3, false⟩] 18446744073709551615, _,
      by decide +kernel, List.mem_singleton_self _, by decide⟩

end LightRocm.Bundle
