import LightRocm.Loader.KernelArguments
import LightRocm.Runtime.KernargRuns

/-!
# The arguments that a kernel sees

The loader decodes where the arguments of a kernel lie, and a launch fills its segment by
what was decoded. Together they put into the place of every argument what belongs there.
-/

namespace LightRocm.Loader

open ByteMemory Launch KernargSegment

variable {config : LaunchConfig} {bytes kernargSize : ℕ} {memory : Memory}

/-- What is read from the range of a write is what was written. -/
theorem read_write_self (memory : Memory) (start : ℕ) (value : List UInt8) :
    read (write memory start value) start value.length = value := by
  refine List.ext_getElem (length_read _ _ _) fun i hi hi' => ?_
  simp only [ByteMemory.read, List.getElem_map, List.getElem_range]
  exact write_inside hi'

/-- A byte outside of the arguments that are filled in stays as it is. -/
theorem writeHidden_frame {arguments : List KernelArgumentInfo} {address : ℕ}
    (h : ∀ argument ∈ arguments, ∀ value, hiddenValue config argument.kind = some value →
      ¬ InRange (bytes + argument.offset) argument.size address) :
    (writeHidden config bytes kernargSize arguments memory).2 address = memory address := by
  induction arguments generalizing memory with
  | nil => rfl
  | cons first rest ih =>
    have hrest := fun memory => @ih memory fun _ hmem => h _ (List.mem_cons_of_mem _ hmem)
    rw [writeHidden]
    cases hvalue : hiddenValue config first.kind with
    | none => exact hrest memory
    | some value =>
      have hapart := h first List.mem_cons_self value hvalue
      dsimp only
      by_cases hrefused : first.size ≠ value.length ∨ kernargSize < first.offset ∨
          kernargSize - first.offset < first.size
      · rw [writeArgument, if_pos hrefused]
      · rw [writeArgument, if_neg hrefused]
        refine (hrest _).trans (write_outside ?_)
        unfold InRange at hapart ⊢
        omega

/-- Every hidden argument that is filled in holds its value in the end. -/
theorem writeHidden_filled {arguments : List KernelArgumentInfo}
    (hsorted : arguments.Pairwise fun lhs rhs => lhs.offset + lhs.size ≤ rhs.offset)
    (hwritten : (writeHidden config bytes kernargSize arguments memory).1 = true) :
    ∀ argument ∈ arguments, ∀ value, hiddenValue config argument.kind = some value →
      argument.size = value.length ∧
        read (writeHidden config bytes kernargSize arguments memory).2
          (bytes + argument.offset) argument.size = value := by
  induction arguments generalizing memory with
  | nil => nofun
  | cons first rest ih =>
    obtain ⟨hfirst, hrest⟩ := List.pairwise_cons.mp hsorted
    rw [writeHidden] at hwritten ⊢
    cases hfound : hiddenValue config first.kind with
    | none =>
      rw [hfound] at hwritten
      rintro argument (_ | ⟨_, hmem⟩) value hvalue
      · cases hfound.symm.trans hvalue
      · exact ih hrest hwritten argument hmem value hvalue
    | some value =>
      rw [hfound] at hwritten
      dsimp only at hwritten ⊢
      by_cases hrefused : first.size ≠ value.length ∨ kernargSize < first.offset ∨
          kernargSize - first.offset < first.size
      · rw [writeArgument, if_pos hrefused] at hwritten
        cases hwritten
      rw [writeArgument, if_neg hrefused] at hwritten ⊢
      have hsize : first.size = value.length := by omega
      rintro argument (_ | ⟨_, hmem⟩) value' hvalue
      · -- The later arguments lie behind the first one.
        obtain rfl : value = value' := Option.some.inj (hfound.symm.trans hvalue)
        refine ⟨hsize, Eq.trans (Agree.read_eq fun i hi => writeHidden_frame ?_)
          (hsize ▸ read_write_self memory _ value)⟩
        intro later hlater _ _
        have := hfirst later hlater
        unfold InRange
        omega
      · exact ih hrest hwritten argument hmem value' hvalue

/-- What belongs into the place of an argument: the value of a hidden argument that is filled in,
and otherwise the bytes of the caller, with zeros where the caller has given none. -/
def Seen (config : LaunchConfig) (before after : Memory) (args argsSize segment : ℕ)
    (argument : KernelArgumentInfo) : Prop :=
  match hiddenValue config argument.kind with
  | some value => argument.size = value.length ∧
      read after (segment + argument.offset) argument.size = value
  | none => ∀ i, argument.offset ≤ i → i < argument.offset + argument.size →
      after (segment + i) = if i < argsSize then before (args + i) else 0

/-- The segment before the hidden arguments are filled in. -/
theorem segment_byte {before : Memory} {args argsSize segment size i : ℕ}
    (hargs : argsSize ≤ size) (hi : i < size) :
    write (write before segment (read before args argsSize)) (segment + argsSize)
      (List.replicate (size - argsSize) 0) (segment + i) =
        if i < argsSize then before (args + i) else 0 := by
  split
  · rename_i hlow
    rw [write_outside (by unfold InRange; omega), write_inside (by rwa [length_read])]
    simp [ByteMemory.read]
  · obtain ⟨j, rfl⟩ := Nat.exists_eq_add_of_le (Nat.le_of_not_lt ‹_›)
    rw [← Nat.add_assoc, write_inside (by rw [List.length_replicate]; omega)]
    simp

/-- A launch that fills a segment puts into it what belongs to each argument. -/
theorem KernelInfo.Ordered.seen {kernel : KernelInfo} (h : kernel.Ordered)
    (hend : ∀ argument ∈ kernel.arguments, argument.offset + argument.size ≤ kernel.kernargSize)
    {requirements : KernargBufferRequirements} {args argsSize : ℕ} {slice : KernargSlice}
    {found last : KernargQueue} (hstorage : requirements.storageSize = kernel.kernargSize)
    (hfill : fillKernarg requirements kernel config args argsSize slice found = (true, last)) :
    last.arenas = found.arenas ∧ ∀ argument ∈ kernel.arguments,
      Seen config found.memory last.memory args argsSize (slice.hostAddress found.arenas)
        argument := by
  unfold fillKernarg at hfill
  split at hfill
  · rename_i hzero
    cases hfill
    refine ⟨rfl, fun argument hmem => ?_⟩
    have := hend argument hmem
    have := h.size_pos argument hmem
    omega
  rename_i hnonempty
  dsimp only at hfill
  split at hfill
  · cases hfill
  rename_i address filled hmaterialize
  obtain ⟨hsize, hdestination, rfl⟩ := materialize_spec hnonempty hmaterialize
  obtain ⟨hpopulated, rfl⟩ := Prod.mk.inj hfill
  refine ⟨rfl, fun argument hmem => ?_⟩
  rw [← h.populateFrom_zero, populateFrom] at hpopulated ⊢
  split at hpopulated
  · cases hpopulated
  rename_i haccepted
  rw [if_neg haccepted]
  rw [List.drop_zero] at hpopulated ⊢
  unfold Seen
  split
  · rename_i value hvalue
    exact writeHidden_filled h.sorted hpopulated argument hmem value hvalue
  · rename_i hnone
    intro i hi hi'
    have hlast := hend argument hmem
    rw [hstorage] at hsize ⊢
    refine (writeHidden_frame ?_).trans (segment_byte hsize (by omega))
    -- The arguments that are filled in lie before this one or behind it.
    intro other hother value hvalue
    obtain ⟨j, hj, rfl⟩ := List.mem_iff_getElem.mp hother
    obtain ⟨k, hk, rfl⟩ := List.mem_iff_getElem.mp hmem
    have hpairs := List.pairwise_iff_getElem.mp h.sorted
    unfold InRange
    rcases lt_trichotomy j k with hjk | rfl | hjk
    · have := hpairs j k hj hk hjk
      omega
    · cases hnone.symm.trans hvalue
    · have := hpairs k j hk hj hjk
      omega

/-- Decoded kernels: an accepted launch leaves in its segment, for every argument that the
metadata describes, the value of a hidden argument that the runtime fills in, and otherwise the
bytes of the caller, with zeros where the caller has given none. -/
theorem launched_arguments_seen {sorting : ArgumentSorting} {kernelValue : MessagePackValue}
    {kernel decoded : KernelInfo} {offset args argsSize : ℕ} {array : List MessagePackValue}
    {around : Surroundings} {queue after : KernargQueue}
    (hfresh : kernel.arguments = []) (hsize : kernel.kernargSize < 2 ^ 32)
    (hargs : findField kernelValue ".args" = some (.array offset array))
    (hdecoded : decodeKernelArguments sorting kernelValue kernel = .ok decoded)
    (hlaunch : submitKernel decoded config args argsSize around queue = (.success, after)) :
    ∃ slice, after.pending.getLast? = some slice ∧ ∀ argument ∈ decoded.arguments,
      Seen config queue.memory after.memory args argsSize (slice.hostAddress after.arenas)
        argument := by
  obtain ⟨found, lowest, hdescribed, -, -, rfl, hordered⟩ :=
    ordered_of_decodeKernelArguments hfresh hsize hargs hdecoded
  have hend : ∀ argument ∈ sorting.sort found,
      argument.offset + argument.size ≤ kernel.kernargSize := by
    intro argument hmem
    obtain ⟨i, hi, rfl⟩ := List.mem_iff_getElem.mp ((sorting.perm found).mem_iff.mp hmem)
    exact (hdescribed.get (hdescribed.length_eq ▸ hi) hi).end_le
  cases submitted_of_eq hlaunch with
  | refused hfailed => exact absurd rfl hfailed
  | noObject hacquire => exact absurd rfl (acquireDispatch_error hacquire)
  | failed _ _ _ hfailed => exact absurd rfl hfailed
  | accepted hacquire hstorage hfill =>
    obtain ⟨harenas, hseen⟩ := hordered.seen hend hstorage hfill
    refine ⟨_, List.getLast?_concat, ?_⟩
    rw [← acquireDispatch_memory hacquire]
    dsimp only
    rw [harenas]
    exact hseen

/-- A pointer and a block count in a slice full of old bytes. -/
theorem launched_arguments_seen_two : ∃ decoded after slice,
    decodeKernelArguments (.insertion _) (twoArguments false)
      { kernargSize := 12, kernargAlignment := 16 } = .ok decoded ∧
    decoded.arguments.length = 2 ∧
    submitKernel decoded ⟨⟨64, 1, 1⟩, ⟨32, 1, 1⟩, 0⟩ 64 8 sampleSurroundings (sampleQueue 0xff) =
      (.success, after) ∧ after.pending.getLast? = some slice ∧
    ∀ argument ∈ decoded.arguments, Seen ⟨⟨64, 1, 1⟩, ⟨32, 1, 1⟩, 0⟩ (sampleQueue 0xff).memory
      after.memory 64 8 (slice.hostAddress after.arenas) argument := by
  obtain ⟨decoded, hdecoded, hlength, hlaunch⟩ : ∃ decoded,
      decodeKernelArguments (.insertion _) (twoArguments false)
        { kernargSize := 12, kernargAlignment := 16 } = .ok decoded ∧
      decoded.arguments.length = 2 ∧
      (submitKernel decoded ⟨⟨64, 1, 1⟩, ⟨32, 1, 1⟩, 0⟩ 64 8 sampleSurroundings
        (sampleQueue 0xff)).1 = .success := ⟨_, rfl, rfl, by decide +kernel⟩
  have heq : submitKernel decoded ⟨⟨64, 1, 1⟩, ⟨32, 1, 1⟩, 0⟩ 64 8 sampleSurroundings
      (sampleQueue 0xff) = (.success, _) := Prod.ext hlaunch rfl
  obtain ⟨slice, hlast, hseen⟩ :=
    launched_arguments_seen rfl (by decide) rfl hdecoded heq
  exact ⟨decoded, _, slice, hdecoded, hlength, heq, hlast, hseen⟩

end LightRocm.Loader
