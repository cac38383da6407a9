import LightRocm.Iree.CommandBuffer
import LightRocm.Lib.Checked

/-!
# Replay of command buffers

`lrrt_iree_hal_device_replay_command_buffer` performs the recorded commands one after the other. It
is compared with what the commands mean: each changes the memory at once, with the data that the
caller gave when it was recorded.
-/

namespace LightRocm.Iree

open ByteMemory

/-- `lrrt_iree_hal_command_buffer_resolve_buffer_ref`. -/
def resolveBufferRef (hal : Hal) (table : hal.Table) (ref : BufferRef) :
    Except Failure (BufferRef × Buffer) := do
  let resolved ← hal.resolveRef table ref
  match resolved.buffer with
  | none => .error ⟨.invalidArgument,
      "lrrt HAL command buffer buffer reference resolved to null buffer"⟩
  | some buffer => .ok (resolved, buffer)

/-- `lrrt_iree_hal_device_replay_command`. -/
def replayCommand (hal : Hal) (table : hal.Table) : CommandRecord → Operation Unit
  | .update source sourceOffset target => do
    let (ref, buffer) ← Fallible.ofExcept (resolveBufferRef hal table target)
    updateNow source sourceOffset buffer ref.offset ref.length
  | .copy source target => do
    let (sourceRef, sourceBuffer) ← Fallible.ofExcept (resolveBufferRef hal table source)
    let (ref, buffer) ← Fallible.ofExcept (resolveBufferRef hal table target)
    copyNow hal sourceBuffer sourceRef.offset buffer ref.offset ref.length
  | .fill pattern patternLength target => do
    let (ref, buffer) ← Fallible.ofExcept (resolveBufferRef hal table target)
    fillNow buffer ref.offset ref.length (some pattern) patternLength
  | .dispatch asked => dispatchNow hal table asked

/-- `lrrt_iree_hal_device_replay_command_buffer`. -/
def replayCommandBuffer (hal : Hal) (table : hal.Table) : List CommandRecord → Operation Unit
  | [] => return ()
  | command :: rest => do
    replayCommand hal table command
    synchronize
    replayCommandBuffer hal table rest

/-! ## Meaning of the commands -/

/-- A command, with the data that the caller gave. -/
inductive Command where
  | fill (target : BufferRef) (pattern : List UInt8)
  | update (target : BufferRef) (bytes : List UInt8)
  | copy (source target : BufferRef)
  | dispatch (asked : Dispatch)

/-- What a recording call asks for. -/
def Call.command (host : HostMemory) : Call → Command
  | .fill target pattern patternLength =>
    .fill target (read host.bytes (pattern.getD 0) patternLength)
  | .update source sourceOffset target =>
    .update target (read host.bytes (source.getD 0 + sourceOffset) target.length)
  | .copy source target => .copy source target
  | .dispatch executable function config constants constantsLength bindings indirectFlags =>
    .dispatch (readDispatch host executable function config constants constantsLength bindings
      indirectFlags)

/-- A range of a buffer that a transfer can use. -/
def Buffer.covers (buffer : Buffer) (offset length : ℕ) : Prop :=
  offset + length ≤ buffer.byteLength ∧ ¬ tooLarge length

instance (buffer : Buffer) (offset length : ℕ) : Decidable (buffer.covers offset length) :=
  inferInstanceAs (Decidable (_ ∧ _))

/-- The pattern again and again. -/
def repeated (pattern : List UInt8) (length : ℕ) : List UInt8 :=
  (List.range length).map fun i => pattern.getD (i % pattern.length) 0

/-- What a fill of a range means, if it is valid. -/
def fillMeaning (target : Buffer) (offset length : ℕ) (pattern : List UInt8) :
    Option (Memory → Memory) :=
  if length = 0 then some id
  else if (pattern.length = 1 ∨ pattern.length = 2 ∨ pattern.length = 4) ∧
      pattern.length ∣ offset ∧ pattern.length ∣ length ∧ target.transferTarget = true ∧
      target.covers offset length ∧ target.backedByLrrt = true then
    some fun memory => write memory (target.address + offset) (repeated pattern length)
  else none

/-- What an update of a range means, if it is valid. -/
def updateMeaning (target : Buffer) (offset length : ℕ) (bytes : List UInt8) :
    Option (Memory → Memory) :=
  if length = 0 then some id
  else if target.transferTarget = true ∧ target.covers offset length ∧
      target.backedByLrrt = true then
    some fun memory => write memory (target.address + offset) bytes
  else none

/-- What a copy from range to range means, if it is valid. -/
def copyMeaning (source : Buffer) (sourceOffset : ℕ) (target : Buffer) (offset length : ℕ) :
    Option (Memory → Memory) :=
  if length = 0 then some id
  else if source.transferSource = true ∧ target.transferTarget = true ∧
      source.covers sourceOffset length ∧ (source.isLrrt = true → source.backedByLrrt = true) ∧
      target.covers offset length ∧ (target.isLrrt = true → target.backedByLrrt = true) then
    some fun memory =>
      write memory (target.address + offset) (read memory (source.address + sourceOffset) length)
  else none

/-- What a dispatch means, if it is valid. -/
def dispatchMeaning (hal : Hal) (table : hal.Table) (asked : Dispatch) : Option (Memory → Memory) :=
  if asked.indirectFlags = true ∨ asked.config.indirectCount = true then none
  else if asked.config.workgroupCount.hasZero then some id
  else if maxInlineBindings < asked.bindings.length ∨
      (asked.bindings ≠ [] ∧ asked.nullBindings = true) ∨
      tooLarge (8 * asked.bindings.length + asked.constants.length) then none
  else
    match resolveWorkgroupSize asked.executable asked.function asked.config "dispatch",
        kernelForFunction asked.executable asked.function,
        bindingArguments hal table 0 asked.bindings with
    | .ok config, .ok kernel, .ok arguments =>
      if config.launch.Invalid (8 * asked.bindings.length + asked.constants.length) then none
      else some (hal.effect kernel config.launch (arguments ++ asked.constants))
    | _, _, _ => none

/-- How a command changes the memory, if it is valid. -/
def Command.meaning (hal : Hal) (table : hal.Table) : Command → Option (Memory → Memory)
  | .fill target pattern =>
    match resolveBufferRef hal table target with
    | .error _ => none
    | .ok (ref, buffer) => fillMeaning buffer ref.offset ref.length pattern
  | .update target bytes =>
    match resolveBufferRef hal table target with
    | .error _ => none
    | .ok (ref, buffer) => updateMeaning buffer ref.offset ref.length bytes
  | .copy source target =>
    match resolveBufferRef hal table source, resolveBufferRef hal table target with
    | .ok (sourceRef, sourceBuffer), .ok (ref, buffer) =>
      copyMeaning sourceBuffer sourceRef.offset buffer ref.offset ref.length
    | _, _ => none
  | .dispatch asked => dispatchMeaning hal table asked

/-- The first call of the surroundings that is to fail; nothing is called after it. -/
def firstFailure (answers : List Answer) : Option Answer :=
  answers.find? fun answer => answer.failure.isSome

/-- The commands are performed one at a time, up to the first that fails: one that is not valid
changes nothing, and one whose surroundings fail leaves what the failed call leaves. -/
inductive Performs (hal : Hal) (table : hal.Table) (answers : List Answer) :
    List Command → Memory → Except Failure Unit → Memory → Prop
  | done (memory : Memory) : Performs hal table answers [] memory (.ok ()) memory
  | next {command : Command} {rest : List Command} {memory final : Memory} {change : Memory → Memory}
      {status : Except Failure Unit} (hmeaning : command.meaning hal table = some change)
      (hrest : Performs hal table answers rest (change memory) status final) :
      Performs hal table answers (command :: rest) memory status final
  | refused {command : Command} {rest : List Command} {memory : Memory} {failure : Failure}
      (hmeaning : command.meaning hal table = none) :
      Performs hal table answers (command :: rest) memory (.error failure) memory
  | failed {command : Command} {rest : List Command} {memory final : Memory} {failure : Failure}
      {answer : Answer} (hanswer : firstFailure answers = some answer)
      (hfinal : final = memory ∨ final = answer.left memory ∨
        ∃ change, command.meaning hal table = some change ∧ final = answer.left (change memory)) :
      Performs hal table answers (command :: rest) memory (.error failure) final

/-! ## The device performs what is meant -/

/-- A call of the surroundings has failed. -/
def Broken (device after : Device) : Prop :=
  ∃ answer, firstFailure device.answers = some answer ∧
    (after.memory = device.memory ∨ after.memory = answer.left device.memory)

/-- An operation has stopped, because it is not valid or because a call has failed. -/
structure Stopped (device : Device) (invalid : Prop) (after : Device) : Prop where
  pending : after.pending = device.pending
  memory : (invalid ∧ after.memory = device.memory) ∨ Broken device after

/-- An operation has changed the memory. -/
structure Changed (device : Device) (change : Memory → Memory) (after : Device) : Prop where
  pending : after.pending = device.pending
  answers : firstFailure after.answers = firstFailure device.answers
  memory : after.memory = change device.memory

section Operations

open Fallible

variable {device first : Device} {invalid : Prop} {change : Memory → Memory} {size : ℕ}
  {Post : Unit → Device → Prop}

theorem Changed.refl (device : Device) : Changed device id device := ⟨rfl, rfl, rfl⟩

/-- A stop after calls that have changed nothing. -/
theorem Stopped.after {after : Device} (h : Stopped first invalid after)
    (hfirst : Changed device id first) : Stopped device invalid after where
  pending := h.pending.trans hfirst.pending
  memory := by
    have hmemory : first.memory = device.memory := hfirst.memory
    refine h.memory.imp (And.imp_right (·.trans hmemory)) ?_
    rintro ⟨answer, hfailed, hor⟩
    rw [hmemory] at hor
    exact ⟨answer, hfirst.answers.symm.trans hfailed, hor⟩

/-- A change after calls that have changed nothing. -/
theorem Changed.after {after : Device} (h : Changed first change after)
    (hfirst : Changed device id first) : Changed device change after :=
  ⟨h.pending.trans hfirst.pending, h.answers.trans hfirst.answers,
    h.memory.trans (congrArg change hfirst.memory)⟩

/-- A check that an operation makes. -/
theorem ensures_refuse {bad : Prop} [Decidable bad] {code : StatusCode} {message : String}
    (hbad : bad → invalid) :
    (refuse bad code message).Ensures device (fun _ after => ¬ bad ∧ after = device)
      (Stopped device invalid) :=
  Ensures.ite (fun h => Ensures.throw ⟨rfl, .inl ⟨hbad h, rfl⟩⟩)
    fun h => Ensures.pure ⟨h, rfl⟩

/-- A computation without the device. -/
theorem ensures_ofExcept {α : Type} {x : Except Failure α} (hbad : ∀ e, x = .error e → invalid) :
    (Fallible.ofExcept x : Operation α).Ensures device (fun a after => x = .ok a ∧ after = device)
      (Stopped device invalid) :=
  Ensures.ofExcept (fun _ h => ⟨h, rfl⟩) fun e h => ⟨rfl, .inl ⟨hbad e h, rfl⟩⟩

/-- The next answer is the first failure, or the first failure comes after it. -/
theorem firstFailure_next (answers : List Answer) :
    ((answers.headD {}).failure ≠ none → firstFailure answers = some (answers.headD {})) ∧
      ((answers.headD {}).failure = none → firstFailure answers.tail = firstFailure answers) := by
  cases answers with
  | nil => exact ⟨fun hfailed => absurd rfl hfailed, fun _ => rfl⟩
  | cons answer rest =>
    refine ⟨fun hfailed => ?_, fun hnone => ?_⟩
    · exact List.find?_cons_of_pos (Option.isSome_iff_ne_none.mpr hfailed)
    · refine (List.find?_cons_of_neg ?_).symm
      rw [show answer.failure = none from hnone]
      exact Bool.false_ne_true

/-- A question: an answer that tells of a failure is the first that does. -/
theorem ensures_ask {Fail : Device → Prop} :
    ask.Ensures device (fun answer after => after.pending = device.pending ∧
      after.memory = device.memory ∧
      (answer.failure ≠ none → firstFailure device.answers = some answer) ∧
      (answer.failure = none → Changed device id after)) Fail := by
  obtain ⟨hfirst, hsame⟩ := firstFailure_next device.answers
  exact Ensures.lift ⟨rfl, rfl, hfirst, fun hnone => ⟨rfl, hsame hnone, rfl⟩⟩

/-- Memory of the host. -/
theorem ensures_malloc {failure : Failure} (hlarge : tooLarge size → invalid) :
    (malloc size failure).Ensures device (fun _ after => ¬ tooLarge size ∧ Changed device id after)
      (Stopped device invalid) := by
  refine Ensures.bind ensures_ask fun answer asked ⟨hpending, hmemory, hfirst, hsame⟩ => ?_
  refine Ensures.ite (fun hbad => Ensures.throw ⟨hpending, ?_⟩) fun hgood => ?_
  · by_cases hfailed : answer.failure = none
    · exact .inl ⟨hlarge (hbad.resolve_left (not_not.mpr hfailed)), hmemory⟩
    · exact .inr ⟨answer, hfirst hfailed, .inl hmemory⟩
  · exact Ensures.pure ⟨fun h => hgood (.inr h), hsame (not_not.mp fun h => hgood (.inl h))⟩

/-- The memory for arguments. -/
theorem ensures_allocateKernargs (hlarge : tooLarge size → invalid) :
    (allocateKernargs size).Ensures device
      (fun _ after => ¬ tooLarge size ∧ Changed device id after) (Stopped device invalid) := by
  refine Ensures.ite (fun hzero => Ensures.pure ⟨?_, Changed.refl device⟩) fun _ =>
    ensures_malloc hlarge
  rw [hzero]
  decide

/-- A call that changes the memory, and what it leaves when it fails. -/
theorem ensures_access_left {Fail : Device → Prop}
    (hfail : ∀ answer, firstFailure device.answers = some answer → ∀ after : Device,
      after.pending = device.pending → after.memory = answer.left device.memory → Fail after)
    (hlarge : tooLarge size → ∀ after, Changed device id after → Fail after) :
    (access size change).Ensures device
      (fun _ after => ¬ tooLarge size ∧ Changed device change after) Fail := by
  refine Ensures.bind ensures_ask fun answer asked ⟨hpending, hmemory, hfirst, hsame⟩ => ?_
  cases hfailure : answer.failure with
  | some failure =>
    have hfailed : answer.failure ≠ none := by rw [hfailure]; rintro ⟨⟩
    exact Ensures.seq (Ensures.modify (Ensures.throw
      (hfail answer (hfirst hfailed) _ hpending (congrArg answer.left hmemory))))
  | none =>
    have hasked := hsame hfailure
    exact Ensures.ite (fun h => Ensures.throw (hlarge h _ hasked)) fun h =>
      Ensures.modify ⟨h, hasked.pending, hasked.answers, congrArg change hmemory⟩

/-- A call that changes the memory. -/
theorem ensures_access (hlarge : tooLarge size → invalid) :
    (access size change).Ensures device
      (fun _ after => ¬ tooLarge size ∧ Changed device change after) (Stopped device invalid) := by
  refine ensures_access_left (fun answer hfirst after hpending hmemory => ?_)
    fun h after hsame => ?_
  · exact ⟨hpending, .inr ⟨answer, hfirst, .inr hmemory⟩⟩
  · exact ⟨hsame.pending, .inl ⟨hlarge h, hsame.memory⟩⟩

/-- Bytes of the device are read. -/
theorem ensures_memcpyToHost (source : ℕ) (hlarge : tooLarge size → invalid) :
    (memcpyToHost source size).Ensures device
      (fun bytes after => bytes = read device.memory source size ∧ Changed device id after)
      (Stopped device invalid) := by
  refine Ensures.bind (ensures_access hlarge) fun _ after h => Ensures.seq (Ensures.get ?_)
  exact Ensures.pure ⟨congrArg (read · source size) h.2.memory, h.2⟩

end Operations

variable {buffer : Buffer}

/-- A range that the device has. -/
theorem deviceRange_eq_ok {offset length address : ℕ}
    (h : deviceRange (some buffer) offset length = .ok address) (hsmall : ¬ tooLarge length) :
    address = buffer.address + offset ∧ buffer.covers offset length ∧ buffer.backedByLrrt = true := by
  have hwhole : length ≠ wholeBuffer := by
    rintro rfl
    exact hsmall (by decide)
  simp only [deviceRange, hwhole, if_false] at h
  split at h
  · cases h
  · split at h
    · cases h
    · split at h
      · cases h
      · refine ⟨(Except.ok.inj h).symm, ⟨by omega, hsmall⟩, ?_⟩
        rename_i hbacked
        exact Bool.eq_true_of_not_eq_false hbacked

/-- A range that the device does not have. -/
theorem deviceRange_eq_error {offset length : ℕ} {failure : Failure}
    (h : deviceRange (some buffer) offset length = .error failure) :
    ¬ (buffer.covers offset length ∧ buffer.backedByLrrt = true) := by
  rintro ⟨⟨hle, hsmall⟩, hbacked⟩
  have hwhole : length ≠ wholeBuffer := by
    rintro rfl
    exact hsmall (by decide)
  simp only [deviceRange, hwhole, if_false] at h
  rw [if_neg (by omega), if_neg (by omega), if_neg (by simp [hbacked])] at h
  cases h

/-- The loop of the fill writes the pattern again and again. -/
theorem scratch_eq_repeated (pattern : List UInt8) (rounds : ℕ) :
    scratch pattern rounds = repeated pattern (rounds * pattern.length) := by
  induction rounds with
  | zero => simp [scratch, repeated]
  | succ rounds ih =>
    rw [scratch, ih, repeated, repeated, Nat.succ_mul, List.range_add, List.map_append, List.map_map]
    congr 1
    refine List.ext_getElem (by simp) fun i hi _ => ?_
    simp [Nat.mod_eq_of_lt hi, hi]

section Commands

open Fallible

variable {device : Device}

/-- A fill changes the memory as it is meant to. -/
theorem ensures_fillNow (target : Buffer) (offset length : ℕ) (pattern more : List UInt8) :
    (fillNow target offset length (some (pattern ++ more)) pattern.length).Ensures device
      (fun _ after => ∃ change, fillMeaning target offset length pattern = some change ∧
        Changed device change after)
      (Stopped device (fillMeaning target offset length pattern = none)) := by
  refine Ensures.ite (fun hzero => ?_) fun hlength => ?_
  · exact Ensures.pure ⟨id, if_pos hzero, Changed.refl device⟩
  simp only [fillMeaning, if_neg hlength, ite_eq_right_iff, reduceCtorEq, imp_false]
  refine Ensures.bind (ensures_refuse fun hbad hvalid => ?_) ?_
  · rcases hbad with hnull | hsize
    · cases hnull
    · omega
  rintro _ _ ⟨hsize, rfl⟩
  refine Ensures.bind (ensures_refuse fun hbad hvalid => ?_) ?_
  · exact hbad.elim (fun h => h (Nat.mod_eq_zero_of_dvd hvalid.2.1))
      fun h => h (Nat.mod_eq_zero_of_dvd hvalid.2.2.1)
  rintro _ device ⟨haligned, rfl⟩
  refine Ensures.bind (ensures_refuse fun hbad hvalid => ?_) ?_
  · exact Bool.noConfusion (hbad.symm.trans hvalid.2.2.2.1)
  rintro _ device ⟨husage, rfl⟩
  refine Ensures.bind (ensures_ofExcept fun failure hrange hvalid => ?_) ?_
  · exact deviceRange_eq_error hrange hvalid.2.2.2.2
  rintro address device ⟨hrange, rfl⟩
  refine Ensures.bind (ensures_malloc fun hlarge hvalid => hvalid.2.2.2.2.1.2 hlarge) ?_
  rintro _ first ⟨hsmall, hfirst⟩
  obtain ⟨rfl, hcovers, hbacked⟩ := deviceRange_eq_ok hrange hsmall
  have hdvd : pattern.length ∣ offset ∧ pattern.length ∣ length := by
    rw [not_or, not_not, not_not] at haligned
    exact ⟨Nat.dvd_of_mod_eq_zero haligned.1, Nat.dvd_of_mod_eq_zero haligned.2⟩
  have hvalid : (pattern.length = 1 ∨ pattern.length = 2 ∨ pattern.length = 4) ∧
      pattern.length ∣ offset ∧ pattern.length ∣ length ∧ target.transferTarget = true ∧
      target.covers offset length ∧ target.backedByLrrt = true :=
    ⟨by omega, hdvd.1, hdvd.2, Bool.eq_true_of_not_eq_false husage, hcovers, hbacked⟩
  have hbytes : scratch ((pattern ++ more).take pattern.length) (length / pattern.length) =
      repeated pattern length := by
    rw [List.take_left, scratch_eq_repeated, Nat.div_mul_cancel hdvd.2]
  have hlength : (repeated pattern length).length = length := by simp [repeated]
  rw [Option.getD_some, hbytes]
  refine (ensures_access fun hlarge => absurd (hlength ▸ hlarge) hsmall).mono (fun _ after h => ?_)
    fun after h => h.after hfirst
  exact ⟨_, if_pos hvalid, h.2.after hfirst⟩

/-- An update changes the memory as it is meant to. -/
theorem ensures_updateNow (target : Buffer) (offset : ℕ) {length : ℕ} {bytes : List UInt8}
    (hbytes : length ≠ 0 → bytes.length = length ∧ ¬ tooLarge length) :
    (updateNow bytes 0 target offset length).Ensures device
      (fun _ after => ∃ change, updateMeaning target offset length bytes = some change ∧
        Changed device change after)
      (Stopped device (updateMeaning target offset length bytes = none)) := by
  refine Ensures.ite (fun hzero => ?_) fun hlength => ?_
  · exact Ensures.pure ⟨id, if_pos hzero, Changed.refl device⟩
  obtain ⟨hbytes, hsmall⟩ := hbytes hlength
  simp only [updateMeaning, if_neg hlength, ite_eq_right_iff, reduceCtorEq, imp_false]
  refine Ensures.bind (ensures_refuse fun hbad hvalid => ?_) ?_
  · exact Bool.noConfusion (hbad.symm.trans hvalid.1)
  rintro _ device ⟨husage, rfl⟩
  refine Ensures.bind (ensures_ofExcept fun failure hrange hvalid => ?_) ?_
  · exact deviceRange_eq_error hrange hvalid.2
  rintro address device ⟨hrange, rfl⟩
  obtain ⟨rfl, hcovers, hbacked⟩ := deviceRange_eq_ok hrange hsmall
  rw [List.drop_zero, List.take_of_length_le hbytes.le]
  refine (ensures_access fun hlarge => absurd (hbytes ▸ hlarge) hsmall).mono (fun _ after h => ?_)
    fun after h => h
  exact ⟨_, if_pos ⟨Bool.eq_true_of_not_eq_false husage, hcovers, hbacked⟩, h.2⟩

/-- A range that a copy can use. -/
theorem copyRange_eq_ok {hal : Hal} {offset length address : ℕ}
    (h : copyRange hal buffer offset length = .ok address) (hsmall : ¬ tooLarge length) :
    address = buffer.address + offset ∧ buffer.covers offset length ∧
      (buffer.isLrrt = true → buffer.backedByLrrt = true) := by
  unfold copyRange at h
  split at h
  · obtain ⟨haddress, hcovers, hbacked⟩ := deviceRange_eq_ok h hsmall
    exact ⟨haddress, hcovers, fun _ => hbacked⟩
  · rename_i hother
    obtain ⟨hinside, haddress⟩ := (hal.mapRange_eq_ok hsmall).mp h
    exact ⟨haddress, ⟨hinside, hsmall⟩, fun hlrrt => absurd hlrrt hother⟩

/-- A range that a copy cannot use. -/
theorem copyRange_eq_error {hal : Hal} {offset length : ℕ} {failure : Failure}
    (h : copyRange hal buffer offset length = .error failure) :
    ¬ (buffer.covers offset length ∧ (buffer.isLrrt = true → buffer.backedByLrrt = true)) := by
  rintro ⟨hcovers, hbacked⟩
  unfold copyRange at h
  split at h
  · rename_i hlrrt
    exact deviceRange_eq_error h ⟨hcovers, hbacked hlrrt⟩
  · have hok := (hal.mapRange_eq_ok hcovers.2).mpr ⟨hcovers.1, rfl⟩
    rw [h] at hok
    cases hok

/-- A copy changes the memory as it is meant to, on the device or through the host. -/
theorem ensures_copyNow (hal : Hal) (source : Buffer) (sourceOffset : ℕ) (target : Buffer)
    (offset length : ℕ) :
    (copyNow hal source sourceOffset target offset length).Ensures device
      (fun _ after => ∃ change,
        copyMeaning source sourceOffset target offset length = some change ∧
          Changed device change after)
      (Stopped device (copyMeaning source sourceOffset target offset length = none)) := by
  refine Ensures.ite (fun hzero => ?_) fun hlength => ?_
  · exact Ensures.pure ⟨id, if_pos hzero, Changed.refl device⟩
  simp only [copyMeaning, if_neg hlength, ite_eq_right_iff, reduceCtorEq, imp_false]
  refine Ensures.bind (ensures_refuse fun hbad hvalid => ?_) ?_
  · exact Bool.noConfusion (hbad.symm.trans hvalid.1)
  rintro _ device ⟨hsource, rfl⟩
  refine Ensures.bind (ensures_refuse fun hbad hvalid => ?_) ?_
  · exact Bool.noConfusion (hbad.symm.trans hvalid.2.1)
  rintro _ device ⟨htarget, rfl⟩
  have hsource := Bool.eq_true_of_not_eq_false hsource
  have htarget := Bool.eq_true_of_not_eq_false htarget
  refine Ensures.ite (fun hlrrt => ?_) fun _ => ?_
  · refine Ensures.bind (ensures_ofExcept fun failure hrange hvalid => ?_) ?_
    · exact deviceRange_eq_error hrange ⟨hvalid.2.2.1, hvalid.2.2.2.1 hlrrt.1⟩
    rintro sourceAddress device ⟨hsourceRange, rfl⟩
    refine Ensures.bind (ensures_ofExcept fun failure hrange hvalid => ?_) ?_
    · exact deviceRange_eq_error hrange ⟨hvalid.2.2.2.2.1, hvalid.2.2.2.2.2 hlrrt.2⟩
    rintro address device ⟨hrange, rfl⟩
    refine (ensures_access fun hlarge hvalid => hvalid.2.2.1.2 hlarge).mono (fun _ after h => ?_)
      fun after h => h
    obtain ⟨rfl, hsourceCovers, hsourceBacked⟩ := deviceRange_eq_ok hsourceRange h.1
    obtain ⟨rfl, hcovers, hbacked⟩ := deviceRange_eq_ok hrange h.1
    exact ⟨_, if_pos ⟨hsource, htarget, hsourceCovers, fun _ => hsourceBacked, hcovers,
      fun _ => hbacked⟩, h.2⟩
  · refine Ensures.bind (ensures_malloc fun hlarge hvalid => hvalid.2.2.1.2 hlarge) ?_
    rintro _ first ⟨hsmall, hfirst⟩
    refine Ensures.bind ((ensures_ofExcept fun failure hrange hvalid => ?_).mono
      (fun _ _ h => h) fun _ h => h.after hfirst) ?_
    · exact copyRange_eq_error hrange ⟨hvalid.2.2.1, hvalid.2.2.2.1⟩
    rintro sourceAddress first ⟨hsourceRange, rfl⟩
    obtain ⟨rfl, hsourceCovers, hsourceBacked⟩ := copyRange_eq_ok hsourceRange hsmall
    refine Ensures.bind ((ensures_memcpyToHost _ fun hlarge => absurd hlarge hsmall).mono
      (fun _ _ h => h) fun _ h => h.after hfirst) ?_
    rintro bytes second ⟨rfl, hsecond⟩
    have hsecond := hsecond.after hfirst
    refine Ensures.bind ((ensures_ofExcept fun failure hrange hvalid => ?_).mono
      (fun _ _ h => h) fun _ h => h.after hsecond) ?_
    · exact copyRange_eq_error hrange ⟨hvalid.2.2.2.2.1, hvalid.2.2.2.2.2⟩
    rintro address second ⟨hrange, rfl⟩
    obtain ⟨rfl, hcovers, hbacked⟩ := copyRange_eq_ok hrange hsmall
    have hlength : (read first.memory (source.address + sourceOffset) length).length = length := by
      simp [ByteMemory.read]
    refine (ensures_access fun hlarge => absurd (hlength ▸ hlarge) hsmall).mono (fun _ after h => ?_)
      fun after h => h.after hsecond
    refine ⟨_, if_pos ⟨hsource, htarget, hsourceCovers, hsourceBacked, hcovers, hbacked⟩, ?_⟩
    have hmemory : first.memory = device.memory := hfirst.memory
    rw [hmemory] at h
    exact ⟨(h.2.after hsecond).pending, (h.2.after hsecond).answers, (h.2.after hsecond).memory⟩

/-- A command was performed, or a kernel was launched for it. -/
structure Submitted (device : Device) (meaning : Option (Memory → Memory)) (after : Device) :
    Prop where
  answers : firstFailure after.answers = firstFailure device.answers
  change : ∃ change, meaning = some change ∧ after.flushed = change device.memory ∧
    (after.memory = device.memory ∨ after.memory = change device.memory)

/-- A transfer is done at once. -/
theorem Submitted.of_changed {meaning : Option (Memory → Memory)} {after : Device}
    (hpending : device.pending = [])
    (h : ∃ change, meaning = some change ∧ Changed device change after) :
    Submitted device meaning after := by
  obtain ⟨change, hmeaning, hchanged⟩ := h
  refine ⟨hchanged.answers, change, hmeaning, ?_, .inr hchanged.memory⟩
  rw [Device.flushed, hchanged.pending, hpending]
  exact hchanged.memory

/-- A dispatch launches the kernel that is meant. -/
theorem ensures_dispatchNow (hal : Hal) (table : hal.Table) (asked : Dispatch)
    (hpending : device.pending = []) :
    (dispatchNow hal table asked).Ensures device
      (fun _ after => Submitted device (dispatchMeaning hal table asked) after)
      (Stopped device (dispatchMeaning hal table asked = none)) := by
  unfold dispatchMeaning
  refine Ensures.bind (ensures_refuse fun hbad => if_pos (.inl hbad)) ?_
  rintro _ device ⟨hflags, rfl⟩
  refine Ensures.bind (ensures_refuse fun hbad => if_pos (.inr hbad)) ?_
  rintro _ device ⟨hcount, rfl⟩
  rw [if_neg (not_or.mpr ⟨hflags, hcount⟩)]
  refine Ensures.ite (fun hzero => ?_) fun hzero => ?_
  · rw [if_pos hzero]
    exact Ensures.pure (Submitted.of_changed hpending ⟨id, rfl, Changed.refl device⟩)
  rw [if_neg hzero]
  refine Ensures.bind (ensures_ofExcept fun failure hconfig => ?_) ?_
  · rw [hconfig]
    split <;> rfl
  rintro config device ⟨hconfig, rfl⟩
  refine Ensures.bind (ensures_refuse fun hbad => if_pos (.inl hbad)) ?_
  rintro _ device ⟨hlimit, rfl⟩
  refine Ensures.bind (ensures_refuse fun hbad => ?_) ?_
  · exact if_pos (.inr (.inl ⟨fun hnil => hbad.1 (congrArg List.length hnil), hbad.2⟩))
  rintro _ device ⟨hnull, rfl⟩
  refine Ensures.bind (ensures_ofExcept fun failure hkernel => ?_) ?_
  · rw [hconfig, hkernel]
    split <;> rfl
  rintro kernel device ⟨hkernel, rfl⟩
  refine Ensures.bind (ensures_allocateKernargs fun hlarge => ?_) ?_
  · exact if_pos (.inr (.inr hlarge))
  rintro _ first ⟨hsmall, hfirst⟩
  refine Ensures.bind ((ensures_ofExcept fun failure harguments => ?_).mono (fun _ _ h => h)
    fun _ h => h.after hfirst) ?_
  · rw [hconfig, hkernel, harguments]
    split <;> rfl
  rintro arguments first ⟨harguments, rfl⟩
  have hvalid : ¬ (maxInlineBindings < asked.bindings.length ∨
      (asked.bindings ≠ [] ∧ asked.nullBindings = true) ∨
      tooLarge (8 * asked.bindings.length + asked.constants.length)) := by
    refine not_or.mpr ⟨hlimit, not_or.mpr ⟨fun h => hnull ⟨?_, h.2⟩, hsmall⟩⟩
    exact fun hzero => h.1 (List.length_eq_zero_iff.mp hzero)
  rw [if_neg hvalid, hconfig, hkernel, harguments]
  refine Ensures.bind ((ensures_refuse fun hbad => if_pos hbad).mono (fun _ _ h => h)
    fun _ h => h.after hfirst) ?_
  rintro _ first ⟨haccepted, rfl⟩
  refine Ensures.bind ((ensures_access fun hlarge => absurd hlarge (by decide)).mono
    (fun _ _ h => h) fun _ h => h.after hfirst) ?_
  rintro _ launched ⟨-, hlaunched⟩
  have hlaunched := hlaunched.after hfirst
  refine Ensures.modify ⟨hlaunched.answers,
    hal.effect kernel config.launch (arguments ++ asked.constants), if_neg haccepted, ?_,
    .inl hlaunched.memory⟩
  · rw [Device.flushed, hlaunched.pending, hpending, hlaunched.memory]
    rfl

/-- The kernels that were launched are done, or a call has failed and they still run. -/
theorem ensures_synchronize :
    synchronize.Ensures device
      (fun _ after => after.pending = [] ∧
        firstFailure after.answers = firstFailure device.answers ∧ after.memory = device.flushed)
      (fun after => after.pending = device.pending ∧ ∃ answer,
        firstFailure device.answers = some answer ∧ after.memory = answer.left device.memory) := by
  refine Ensures.bind (ensures_access_left (fun answer hfirst after hpending hmemory => ?_)
    fun hlarge => absurd hlarge (by decide)) fun _ after h => ?_
  · exact ⟨hpending, answer, hfirst, hmemory⟩
  · refine Ensures.modify ⟨rfl, h.2.answers, ?_⟩
    change List.foldl _ after.memory after.pending = _
    rw [h.2.pending, show after.memory = device.memory from h.2.memory]
    rfl

/-- A reference that resolves. -/
theorem resolveBufferRef_eq_ok {hal : Hal} {table : hal.Table} {target ref : BufferRef}
    (h : resolveBufferRef hal table target = .ok (ref, buffer)) :
    hal.resolveRef table target = .ok ref := by
  obtain ⟨resolved, hresolve, hbuffer⟩ := Checked.bind_eq_ok.mp h
  cases hnone : resolved.buffer with
  | none =>
    rw [hnone] at hbuffer
    cases hbuffer
  | some found =>
    rw [hnone] at hbuffer
    cases hbuffer
    exact hresolve

/-- A record does what its call asked for. -/
theorem ensures_replayCommand (hal : Hal) (table : hal.Table) (host : HostMemory) (call : Call)
    (hfits : (call.written host).fits) (hpending : device.pending = []) :
    (replayCommand hal table (call.written host)).Ensures device
      (fun _ after => Submitted device ((call.command host).meaning hal table) after)
      (Stopped device ((call.command host).meaning hal table = none)) := by
  cases call with
  | fill target pattern patternLength =>
    have hlength : (ByteMemory.read host.bytes (pattern.getD 0) patternLength).length =
        patternLength := by simp [ByteMemory.read]
    simp only [Call.command, Command.meaning]
    refine Ensures.bind (ensures_ofExcept fun failure hresolve => by rw [hresolve]) ?_
    rintro ⟨ref, buffer⟩ device ⟨hresolve, rfl⟩
    rw [hresolve]
    have hfill := @ensures_fillNow device buffer ref.offset ref.length
      (ByteMemory.read host.bytes (pattern.getD 0) patternLength)
      (List.replicate (4 - patternLength) 0)
    rw [hlength] at hfill
    exact hfill.mono (fun _ _ h => .of_changed hpending h) fun _ h => h
  | update source sourceOffset target =>
    simp only [Call.command, Command.meaning]
    refine Ensures.bind (ensures_ofExcept fun failure hresolve => by rw [hresolve]) ?_
    rintro ⟨ref, buffer⟩ device ⟨hresolve, rfl⟩
    rw [hresolve]
    have hwhole : target.length ≠ wholeBuffer := by
      intro hwhole
      exact hfits (by rw [hwhole]; decide) (by rw [hwhole]; decide)
    have hsame := hal.resolveRef_length (resolveBufferRef_eq_ok hresolve) hwhole
    refine (ensures_updateNow buffer ref.offset fun hlength => ?_).mono
      (fun _ _ h => .of_changed hpending h) fun _ h => h
    rw [hsame] at hlength ⊢
    exact ⟨by simp [ByteMemory.read], hfits hlength⟩
  | copy source target =>
    simp only [Call.command, Command.meaning]
    refine Ensures.bind (ensures_ofExcept fun failure hresolve => by rw [hresolve]) ?_
    rintro ⟨sourceRef, sourceBuffer⟩ device ⟨hsource, rfl⟩
    rw [hsource]
    refine Ensures.bind (ensures_ofExcept fun failure hresolve => by rw [hresolve]) ?_
    rintro ⟨ref, buffer⟩ device ⟨hresolve, rfl⟩
    rw [hresolve]
    exact (ensures_copyNow _ _ _ _ _ _).mono (fun _ _ h => .of_changed hpending h) fun _ h => h
  | dispatch => exact ensures_dispatchNow hal table _ hpending

variable {hal : Hal} {table : hal.Table}

/-- Only the first call that fails matters. -/
theorem Performs.congr {answers other : List Answer} {commands : List Command}
    {memory final : Memory} {status : Except Failure Unit}
    (hsame : firstFailure answers = firstFailure other)
    (h : Performs hal table answers commands memory status final) :
    Performs hal table other commands memory status final := by
  induction h with
  | done memory => exact .done memory
  | next hmeaning _ ih => exact .next hmeaning ih
  | refused hmeaning => exact .refused hmeaning
  | failed hanswer hfinal => exact .failed (hsame.symm.trans hanswer) hfinal

/-- A replay performs the commands whose records it has; a kernel still runs at its end only if a
call of the surroundings has failed. -/
theorem ensures_replayCommandBuffer (accepted : List (HostMemory × Call))
    (hfits : ∀ entry ∈ accepted, (entry.2.written entry.1).fits) (hpending : device.pending = []) :
    (replayCommandBuffer hal table
      (accepted.map fun entry => entry.2.written entry.1)).Ensures device
      (fun _ after => after.pending = [] ∧ Performs hal table device.answers
        (accepted.map fun entry => entry.2.command entry.1) device.memory (.ok ()) after.memory)
      (fun after => (firstFailure device.answers = none → after.pending = []) ∧
        ∀ failure, Performs hal table device.answers
          (accepted.map fun entry => entry.2.command entry.1) device.memory (.error failure)
          after.memory) := by
  induction accepted generalizing device with
  | nil => exact Ensures.pure ⟨hpending, .done _⟩
  | cons entry rest ih =>
    refine Ensures.bind ((ensures_replayCommand hal table entry.1 entry.2
      (hfits entry List.mem_cons_self) hpending).mono (fun _ _ h => h) fun after h => ?_) ?_
    · refine ⟨fun _ => h.pending.trans hpending, fun failure => ?_⟩
      rcases h.memory with ⟨hnone, hmemory⟩ | ⟨answer, hfailed, hmemory⟩
      · rw [hmemory]
        exact .refused hnone
      · exact .failed hfailed (hmemory.imp id .inl)
    rintro _ submitted ⟨hsame, change, hmeaning, hflushed, hmemory⟩
    refine Ensures.bind (ensures_synchronize.mono (fun _ _ h => h) fun after h => ?_) ?_
    · obtain ⟨-, answer, hfailed, hleft⟩ := h
      rw [hsame] at hfailed
      refine ⟨fun hnone => absurd (hnone.symm.trans hfailed) (by rintro ⟨⟩),
        fun failure => .failed hfailed (.inr ?_)⟩
      rw [hleft]
      exact hmemory.imp (congrArg answer.left) fun hchanged =>
        ⟨change, hmeaning, congrArg answer.left hchanged⟩
    rintro _ synchronized ⟨hdone, hanswers, hsynchronized⟩
    have hfirst := hanswers.trans hsame
    refine (ih (fun entry hin => hfits entry (List.mem_cons_of_mem _ hin)) hdone).mono
      (fun _ after h => ⟨h.1, .next hmeaning ?_⟩) fun after h =>
        ⟨fun hnone => h.1 (hfirst.trans hnone), fun failure => .next hmeaning ?_⟩
    · rw [← hflushed, ← hsynchronized]
      exact h.2.congr hfirst
    · rw [← hflushed, ← hsynchronized]
      exact (h.2 failure).congr hfirst

end Commands

/-! ## Recording and replay -/

/-- The commands that a command buffer has been given since it was begun. -/
def Action.given (buffer : CommandBuffer) (commands : List Command) : Action → List Command
  | .record host allocations call =>
    if (call.record host allocations buffer).1 = none then commands ++ [call.command host]
    else commands
  | .begin => []
  | .destroy => []

/-- A step, with the commands that were given. -/
def recordingStep (action : Action) (session : CommandBuffer × List Command) :
    Option (CommandBuffer × List Command) :=
  (CommandBuffer.step action session.1).map fun after => (after, action.given session.1 session.2)

/-- The records are those of calls that asked for the commands that were given. -/
def Records (session : CommandBuffer × List Command) : Prop :=
  ∃ accepted : List (HostMemory × Call),
    session.1.commands = accepted.map (fun entry => entry.2.written entry.1) ∧
      session.2 = accepted.map (fun entry => entry.2.command entry.1) ∧
      ∀ entry ∈ accepted, (entry.2.written entry.1).fits

/-- A step keeps the records right. -/
theorem Records.step {session after : CommandBuffer × List Command} {action : Action}
    (h : Records session) (hstep : recordingStep action session = some after) : Records after := by
  obtain ⟨accepted, hrecords, hcommands, hfits⟩ := h
  obtain ⟨buffer, hbuffer, rfl⟩ := Option.map_eq_some_iff.mp hstep
  obtain ⟨-, hbuffer⟩ := Option.ite_none_left_eq_some.mp hbuffer
  cases action with
  | record host allocations call =>
    obtain rfl := Option.some.inj hbuffer
    have houtcome : Outcome session.1 (call.written host)
        ((Action.record host allocations call).Clean session.1)
        (call.record host allocations session.1).1 (call.record host allocations session.1).2 :=
      ensures_record host allocations call
    by_cases hnone : (call.record host allocations session.1).1 = none
    · refine ⟨accepted ++ [(host, call)], ?_, ?_, ?_⟩
      · simp [houtcome.commands, hnone, hrecords]
      · simp [Action.given, hnone, hcommands]
      · intro entry hentry
        rcases List.mem_append.mp hentry with hold | hnew
        · exact hfits entry hold
        · obtain rfl := List.mem_singleton.mp hnew
          exact houtcome.fits hnone
    · refine ⟨accepted, ?_, ?_, hfits⟩
      · simp [houtcome.commands, hnone, hrecords]
      · simp [Action.given, hnone, hcommands]
  | begin =>
    obtain rfl := Option.some.inj hbuffer
    exact ⟨[], rfl, rfl, by rintro _ ⟨⟩⟩
  | destroy =>
    obtain rfl := Option.some.inj hbuffer
    exact ⟨[], rfl, rfl, by rintro _ ⟨⟩⟩

/-- The executions of a command buffer with some binding tables, one after the other, each perform
the commands from the memory that the last one left, if no kernel of that one still runs. None does
unless a call of the surroundings has failed. -/
def Repeats (hal : Hal) (records : List CommandRecord) (commands : List Command) :
    List hal.Table → Device → Prop
  | [], _ => True
  | table :: rest, device =>
    (device.pending = [] →
      Performs hal table device.answers commands device.memory
        ((replayCommandBuffer hal table records).run device).1
        ((replayCommandBuffer hal table records).run device).2.memory ∧
      (((replayCommandBuffer hal table records).run device).1 = .ok () ∨
          firstFailure device.answers = none →
        ((replayCommandBuffer hal table records).run device).2.pending = [])) ∧
    Repeats hal records commands rest ((replayCommandBuffer hal table records).run device).2

/-- Executions of records that are right. -/
theorem repeats_of_accepted (hal : Hal) {accepted : List (HostMemory × Call)}
    (hfits : ∀ entry ∈ accepted, (entry.2.written entry.1).fits) (tables : List hal.Table)
    (device : Device) :
    Repeats hal (accepted.map fun entry => entry.2.written entry.1)
      (accepted.map fun entry => entry.2.command entry.1) tables device := by
  induction tables generalizing device with
  | nil => trivial
  | cons table rest ih =>
    refine ⟨fun hpending => ?_, ih _⟩
    obtain ⟨hok, herror⟩ := @ensures_replayCommandBuffer device hal table accepted hfits hpending
    generalize (replayCommandBuffer hal table
      (accepted.map fun entry => entry.2.written entry.1)).run device = result at hok herror ⊢
    obtain ⟨status, after⟩ := result
    cases status with
    | ok result => exact ⟨(hok result rfl).2, fun _ => (hok result rfl).1⟩
    | error failure =>
      refine ⟨(herror failure rfl).2 failure, fun hor => (herror failure rfl).1 ?_⟩
      exact hor.resolve_left (by rintro ⟨⟩)

/-- Every execution of a command buffer, after any sequence of recording calls and whatever the
caller has done with its memory since, performs the commands that were given, one at a time and in
their order, with the data they were given with, up to the first that fails. -/
theorem replay_performs_given_commands {bindingCapacity : ℕ} {actions : List Action}
    {buffer : CommandBuffer} {commands : List Command}
    (hrun : Run.Steps recordingStep (fun _ _ => True) (CommandBuffer.create bindingCapacity, [])
      actions (buffer, commands))
    (hal : Hal) (tables : List hal.Table) (memory : Memory) (answers : List Answer) :
    Repeats hal buffer.commands commands tables { memory := memory, answers := answers } := by
  have hcreated : Records (CommandBuffer.create bindingCapacity, []) :=
    ⟨[], rfl, rfl, by rintro _ ⟨⟩⟩
  obtain ⟨accepted, hrecords, hcommands, hfits⟩ :=
    hrun.invariant (fun _ _ _ h _ hstep => h.step hstep) hcreated
  have hrepeats := repeats_of_accepted hal hfits tables { memory := memory, answers := answers }
  rwa [← hrecords, ← hcommands] at hrepeats

/-- Binding tables that are lists of buffers, and kernels that store a byte. -/
def Hal.listed : Hal where
  Table := List Buffer
  resolveRef := fun table ref =>
    if ref.buffer ≠ none then .ok ref
    else
      match table[ref.bufferSlot]? with
      | none => .error ⟨.outOfRange, "binding table slot out of range"⟩
      | some buffer => .ok { ref with buffer := some buffer }
  resolveRef_length := by
    intro table ref resolved h _
    split at h
    · exact congrArg BufferRef.length (Except.ok.inj h).symm
    · split at h
      · cases h
      · cases h
        rfl
  mapRange := fun buffer offset length =>
    if offset + length ≤ buffer.byteLength then .ok (buffer.address + offset)
    else .error ⟨.outOfRange, "out of range"⟩
  mapRange_eq_ok := by
    intro buffer offset length address _
    split
    · rename_i hinside
      exact ⟨fun h => ⟨hinside, (Except.ok.inj h).symm⟩, fun h => congrArg Except.ok h.2.symm⟩
    · rename_i houtside
      exact ⟨fun h => (by cases h), fun h => absurd h.1 houtside⟩
  effect := fun _ _ kernargs memory => write memory 0 (kernargs.take 1)

/-- A caller whose bytes are all three. -/
def threes : HostMemory where
  bytes := fun _ => 3
  refs := fun _ => { buffer := none, offset := 0, length := 0 }

/-- An update and a fill through a slot of the binding table, and a dispatch. -/
def threeCalls : List Action :=
  [.record threes {} (.update (some 8) 0 { buffer := none, offset := 4, length := 2 }),
    .record threes {} (.fill { buffer := none, offset := 8, length := 4 } (some 0) 2),
    .record threes {} (.dispatch ⟨3, [⟨some 0, ⟨2, 1, 1⟩⟩]⟩ 0
      { workgroupCount := ⟨3, 1, 1⟩, workgroupSize := ⟨0, 0, 0⟩ } 0 4 (0, none) false)]

/-- The commands are performed with one buffer in the slot, and then with another one, up to the
fill, for which there is no memory. -/
theorem threeCalls_replayed_twice : ∃ (buffer : CommandBuffer) (commands : List Command),
    Run.Steps recordingStep (fun _ _ => True) (CommandBuffer.create 1, []) threeCalls
      (buffer, commands) ∧
    let tables : List (List Buffer) := [[{ id := 1, address := 100, byteLength := 16 }],
      [{ id := 2, address := 200, byteLength := 16 }]]
    let device : Device := { memory := fun _ => 0, answers := List.replicate 10 {} ++
      [{ failure := some ⟨.resourceExhausted, "out of memory"⟩ }] }
    let first := (replayCommandBuffer Hal.listed tables[0] buffer.commands).run device
    let second := (replayCommandBuffer Hal.listed tables[1] buffer.commands).run first.2
    commands.length = 3 ∧ first.1 = .ok () ∧ read first.2.memory 104 8 = [3, 3, 0, 0, 3, 3, 3, 3] ∧
      second.1 = .error ⟨.resourceExhausted, "out of memory"⟩ ∧
      read second.2.memory 204 8 = [3, 3, 0, 0, 0, 0, 0, 0] ∧
      Repeats Hal.listed buffer.commands commands tables device := by
  obtain ⟨⟨buffer, commands⟩, hexec⟩ : ∃ session,
      Run.exec recordingStep threeCalls (CommandBuffer.create 1, []) = some session := ⟨_, rfl⟩
  have hrun := Run.Steps.of_exec hexec
  obtain ⟨rfl, rfl⟩ := Prod.mk.inj (Option.some.inj hexec)
  exact ⟨_, _, hrun, rfl, rfl, rfl, rfl, rfl,
    replay_performs_given_commands hrun Hal.listed _ _ _⟩

end LightRocm.Iree
