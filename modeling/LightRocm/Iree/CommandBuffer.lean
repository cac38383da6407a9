import LightRocm.Iree.Device
import LightRocm.Lib.References
import LightRocm.Lib.Run

/-!
# Recording of command buffers

The recording calls of `executor/iree/hal_driver.c`. A record has its own copy of the bytes and
references that the caller points to, and a reference to each buffer and executable it names.
-/

namespace LightRocm.Iree

open ByteMemory References

/-- The memory of the caller: its bytes, and the arrays of references it has there. -/
structure HostMemory where
  bytes : Memory := fun _ => 0
  refs : ℕ → BufferRef

/-- A recording call; a pointer is an address, or none. -/
inductive Call where
  | fill (target : BufferRef) (pattern : Option ℕ) (patternLength : ℕ)
  | update (source : Option ℕ) (sourceOffset : ℕ) (target : BufferRef)
  | copy (source target : BufferRef)
  /-- `bindings` are their number and where they are. -/
  | dispatch (executable : Executable) (function : ℕ) (config : DispatchConfig)
      (constants constantsLength : ℕ) (bindings : ℕ × Option ℕ) (indirectFlags : Bool)

/-- `lrrt_iree_hal_command_record_t`. -/
inductive CommandRecord where
  | update (source : List UInt8) (sourceOffset : ℕ) (target : BufferRef)
  | copy (source target : BufferRef)
  | fill (pattern : List UInt8) (patternLength : ℕ) (target : BufferRef)
  | dispatch (dispatch : Dispatch)
  deriving DecidableEq

/-- What references are held to. -/
inductive Object where
  | buffer (id : ℕ)
  | executable (id : ℕ)
  deriving DecidableEq

/-- What a reference to a buffer names, `lrrt_iree_hal_buffer_ref_retain` and `_release`. -/
def BufferRef.objects (ref : BufferRef) : List Object :=
  (ref.buffer.map fun buffer => .buffer buffer.id).toList

/-- What `lrrt_iree_hal_command_record_reset` releases. -/
def CommandRecord.released : CommandRecord → List Object
  | .update _ _ target => target.objects
  | .copy source target => source.objects ++ target.objects
  | .fill _ _ target => target.objects
  | .dispatch asked =>
    asked.bindings.flatMap BufferRef.objects ++ [.executable asked.executable.id]

/-- The host allocations of one call that succeed. -/
structure Allocations where
  /-- The array of records has room, or can be made larger. -/
  grow : Bool := true
  /-- The source bytes, or the array of bindings. -/
  data : Bool := true
  constants : Bool := true
  deriving DecidableEq

/-- A command buffer, and the references that were taken and given back. -/
structure CommandBuffer where
  bindingCapacity : ℕ
  bindingCount : ℕ := 0
  commands : List CommandRecord := []
  destroyed : Bool := false
  references : List (Reference Object) := []
  deriving DecidableEq

/-- A call on a command buffer returns nothing, or how it failed. -/
abbrev Recorder : Type := Program CommandBuffer (Option Failure)

/-- `iree_hal_buffer_retain` and `iree_hal_executable_retain`. -/
def retain (objects : List Object) : Program CommandBuffer Unit :=
  modify fun buffer => { buffer with references := buffer.references ++ objects.map .retain }

/-- `lrrt_iree_hal_command_record_reset`. -/
def reset (record : CommandRecord) : Program CommandBuffer Unit :=
  modify fun buffer =>
    { buffer with references := buffer.references ++ record.released.map .release }

/-- The record is one of the command buffer. -/
def push (record : CommandRecord) : Recorder := do
  modify fun buffer => { buffer with commands := buffer.commands ++ [record] }
  return none

/-- The host has no memory. -/
def outOfMemory : Failure := ⟨.resourceExhausted, "out of memory"⟩

/-- `lrrt_iree_hal_command_buffer_record_buffer_ref`. -/
def recordBufferRef (ref : BufferRef) : Recorder := do
  let buffer ← get
  if ref.buffer ≠ none then return none
  else if buffer.bindingCapacity < ref.bufferSlot + 1 then
    return some ⟨.outOfRange, "lrrt HAL command buffer indirect binding slot " ++
      toString ref.bufferSlot ++ " exceeds capacity " ++ toString buffer.bindingCapacity⟩
  else
    set { buffer with bindingCount := max buffer.bindingCount (ref.bufferSlot + 1) }
    return none

/-- `lrrt_iree_hal_command_buffer_fill_buffer`. -/
def fillBuffer (host : HostMemory) (allocations : Allocations) (target : BufferRef)
    (pattern : Option ℕ) (patternLength : ℕ) : Recorder := do
  match pattern with
  | none => return some ⟨.invalidArgument, "lrrt HAL command buffer fill pattern is invalid"⟩
  | some address =>
    if 4 < patternLength then
      return some ⟨.invalidArgument, "lrrt HAL command buffer fill pattern is invalid"⟩
    else
      match ← recordBufferRef target with
      | some failure => return some failure
      | none =>
        if allocations.grow = false then return some outOfMemory
        else
          retain target.objects
          push (.fill (read host.bytes address patternLength ++
            List.replicate (4 - patternLength) 0) patternLength target)

/-- `lrrt_iree_hal_command_buffer_update_buffer`. -/
def updateBuffer (host : HostMemory) (allocations : Allocations) (source : Option ℕ)
    (sourceOffset : ℕ) (target : BufferRef) : Recorder := do
  if target.length ≠ 0 ∧ source = none then
    return some ⟨.invalidArgument, "lrrt HAL command buffer update source buffer is null"⟩
  else
    match ← recordBufferRef target with
    | some failure => return some failure
    | none =>
      if allocations.grow = false then return some outOfMemory
      else if target.length ≠ 0 ∧ (allocations.data = false ∨ tooLarge target.length) then
        return some outOfMemory
      else
        retain target.objects
        push (.update (read host.bytes (source.getD 0 + sourceOffset) target.length) 0 target)

variable (allocations : Allocations)

/-- `lrrt_iree_hal_command_buffer_copy_buffer`. -/
def copyBuffer (source target : BufferRef) : Recorder := do
  match ← recordBufferRef source with
  | some failure => return some failure
  | none =>
    match ← recordBufferRef target with
    | some failure => return some failure
    | none =>
      if allocations.grow = false then return some outOfMemory
      else
        retain (source.objects ++ target.objects)
        push (.copy source target)

/-- `lrrt_iree_hal_command_buffer_require_dispatch_shape`. -/
def requireDispatchShape (operation : String) (dispatch : Dispatch) : Except Failure Unit := do
  if dispatch.indirectFlags = true then
    .error ⟨.unimplemented, "lrrt HAL command buffer " ++ operation ++
      " only supports direct static arguments"⟩
  else if dispatch.config.indirectCount = true then
    .error ⟨.unimplemented, "lrrt HAL command buffer " ++ operation ++
      " does not support indirect workgroup counts yet"⟩
  else
    let _ ← resolveWorkgroupSize dispatch.executable dispatch.function dispatch.config operation
    if maxInlineBindings < dispatch.bindings.length then
      .error ⟨.outOfRange, "lrrt HAL command buffer " ++ operation ++ " binding count " ++
        toString dispatch.bindings.length ++ " exceeds inline limit " ++ toString maxInlineBindings⟩
    else if dispatch.bindings.length ≠ 0 ∧ dispatch.nullBindings = true then
      .error ⟨.invalidArgument, "lrrt HAL command buffer " ++ operation ++
        " binding list is null"⟩
    else .ok ()

/-- The loop of the dispatch recording over the bindings. -/
def retainBindings : List BufferRef → Recorder
  | [] => return none
  | ref :: rest => do
    if ref.buffer ≠ none then
      retain ref.objects
      retainBindings rest
    else
      match ← recordBufferRef ref with
      | some failure => return some failure
      | none => retainBindings rest

/-- `lrrt_iree_hal_command_buffer_dispatch`. -/
def recordDispatch (dispatch : Dispatch) : Recorder := do
  match requireDispatchShape "command buffer dispatch" dispatch with
  | .error failure => return some failure
  | .ok _ =>
    if allocations.grow = false then return some outOfMemory
    else if dispatch.bindings.length ≠ 0 ∧ allocations.data = false then return some outOfMemory
    else
      -- The record names the executable and the bindings from here on.
      if dispatch.constants.length ≠ 0 ∧
          (allocations.constants = false ∨ tooLarge dispatch.constants.length) then
        reset (.dispatch dispatch)
        return some outOfMemory
      else
        retain [.executable dispatch.executable.id]
        match ← retainBindings dispatch.bindings with
        | some failure =>
          reset (.dispatch dispatch)
          return some failure
        | none => push (.dispatch dispatch)

/-- A dispatch with what the caller points to. -/
def Call.readDispatch (host : HostMemory) (executable : Executable) (function : ℕ)
    (config : DispatchConfig) (constants constantsLength : ℕ) (bindings : ℕ × Option ℕ)
    (indirectFlags : Bool) : Dispatch where
  executable := executable
  function := function
  config := config
  constants := read host.bytes constants constantsLength
  bindings := (List.range bindings.1).map fun i => host.refs (bindings.2.getD 0 + i)
  nullBindings := bindings.2.isNone
  indirectFlags := indirectFlags

/-- A recording call. -/
def Call.record (host : HostMemory) (allocations : Allocations) : Call → Recorder
  | .fill target pattern patternLength => fillBuffer host allocations target pattern patternLength
  | .update source sourceOffset target => updateBuffer host allocations source sourceOffset target
  | .copy source target => copyBuffer allocations source target
  | .dispatch executable function config constants constantsLength bindings indirectFlags =>
    recordDispatch allocations
      (readDispatch host executable function config constants constantsLength bindings indirectFlags)

/-- `lrrt_iree_hal_command_buffer_begin`. -/
def CommandBuffer.begin (buffer : CommandBuffer) : CommandBuffer :=
  { buffer with
    commands := []
    bindingCount := 0
    references := buffer.references ++
      (buffer.commands.flatMap CommandRecord.released).map .release }

/-- `lrrt_iree_hal_command_buffer_destroy`. -/
def CommandBuffer.destroy (buffer : CommandBuffer) : CommandBuffer :=
  { buffer.begin with destroyed := true }

/-- What a caller does with a command buffer. -/
inductive Action where
  | record (host : HostMemory) (allocations : Allocations) (call : Call)
  | begin
  | destroy

/-- One call; after the destruction there is none. -/
def CommandBuffer.step (action : Action) (buffer : CommandBuffer) : Option CommandBuffer :=
  if buffer.destroyed = true then none
  else
    match action with
    | .record host allocations call => some (call.record host allocations buffer).2
    | .begin => some buffer.begin
    | .destroy => some buffer.destroy

/-! ## References -/

/-- The references that are out are those of the records. -/
def CommandBuffer.Sound (buffer : CommandBuffer) : Prop :=
  Accounts buffer.references (buffer.commands.flatMap CommandRecord.released)

/-- Every binding that the loop does not reach, after a slot beyond the capacity, is a slot. -/
def slotsOnly (capacity : ℕ) : List BufferRef → Prop
  | [] => True
  | ref :: rest =>
    if ref.buffer = none ∧ capacity < ref.bufferSlot + 1 then ∀ later ∈ rest, later.buffer = none
    else slotsOnly capacity rest

instance decidableSlotsOnly (capacity : ℕ) : (refs : List BufferRef) → Decidable (slotsOnly capacity refs)
  | [] => isTrue trivial
  | ref :: rest => by
    unfold slotsOnly
    have := decidableSlotsOnly capacity rest
    infer_instance

/-- The recording gets as far as the array of the bindings. -/
def Dispatch.Started (dispatch : Dispatch) : Prop :=
  (requireDispatchShape "command buffer dispatch" dispatch).isOk = true ∧
    allocations.grow = true ∧ (dispatch.bindings.length ≠ 0 → allocations.data = true)

instance (allocations : Allocations) (dispatch : Dispatch) :
    Decidable (dispatch.Started allocations) := inferInstanceAs (Decidable (_ ∧ _))

/-- The condition on a dispatch: once it has the array of its bindings, the allocation for its
constants succeeds, and no binding after a slot that is refused is a buffer. -/
def Dispatch.Clean (capacity : ℕ) (allocations : Allocations) (dispatch : Dispatch) : Prop :=
  dispatch.Started allocations →
    (dispatch.constants.length ≠ 0 →
      allocations.constants = true ∧ ¬ tooLarge dispatch.constants.length) ∧
    slotsOnly capacity dispatch.bindings

instance (capacity : ℕ) (allocations : Allocations) (dispatch : Dispatch) :
    Decidable (dispatch.Clean capacity allocations) := inferInstanceAs (Decidable (_ → _))

/-- The condition on an action. -/
def Action.Clean (buffer : CommandBuffer) : Action → Prop
  | .record host allocations
      (.dispatch executable function config constants constantsLength bindings indirectFlags) =>
    (Call.readDispatch host executable function config constants constantsLength bindings
      indirectFlags).Clean buffer.bindingCapacity allocations
  | _ => True

instance (buffer : CommandBuffer) : DecidablePred (Action.Clean buffer) := fun action => by
  unfold Action.Clean
  split <;> infer_instance

/-- The record of a call that succeeds, with what the caller points to. -/
def Call.written (host : HostMemory) : Call → CommandRecord
  | .fill target pattern patternLength =>
    .fill (read host.bytes (pattern.getD 0) patternLength ++ List.replicate (4 - patternLength) 0)
      patternLength target
  | .update source sourceOffset target =>
    .update (read host.bytes (source.getD 0 + sourceOffset) target.length) 0 target
  | .copy source target => .copy source target
  | .dispatch executable function config constants constantsLength bindings indirectFlags =>
    .dispatch (readDispatch host executable function config constants constantsLength bindings
      indirectFlags)

/-- There is memory for the bytes of a record. -/
def CommandRecord.fits : CommandRecord → Prop
  | .update _ _ target => target.length ≠ 0 → ¬ tooLarge target.length
  | _ => True

/-- What a recording call does; the references are right under a condition. -/
structure Outcome (before : CommandBuffer) (record : CommandRecord) (clean : Prop)
    (failure : Option Failure) (after : CommandBuffer) : Prop where
  commands : after.commands = if failure = none then before.commands ++ [record] else before.commands
  destroyed : after.destroyed = before.destroyed
  fits : failure = none → record.fits
  sound : before.Sound → clean → after.Sound

section Recording

variable {buffer : CommandBuffer}

open Program

/-- A check of a slot changes the number of bindings at most. -/
theorem ensures_recordBufferRef (ref : BufferRef) :
    (recordBufferRef ref).Ensures buffer fun failure after =>
      (failure = none ↔ ¬ (ref.buffer = none ∧ buffer.bindingCapacity < ref.bufferSlot + 1)) ∧
        ∃ count, after = { buffer with bindingCount := count } := by
  refine Ensures.seq (Ensures.get ?_)
  refine Ensures.ite (fun hbuffer => Ensures.pure ?_) fun hnone => Ensures.ite (fun hslot => Ensures.pure ?_)
    fun hslot => Ensures.seq (Ensures.set (Ensures.pure ?_))
  · exact ⟨⟨fun _ h => hbuffer h.1, fun _ => rfl⟩, buffer.bindingCount, rfl⟩
  · exact ⟨⟨fun h => absurd h (by rintro ⟨⟩), fun h => absurd ⟨not_not.mp hnone, hslot⟩ h⟩,
      buffer.bindingCount, rfl⟩
  · exact ⟨⟨fun _ h => hslot h.2, fun _ => rfl⟩, _, rfl⟩

/-- The loop takes a reference to every buffer among the bindings, if it ends or if no buffer comes
after the slot that is refused. -/
theorem ensures_retainBindings (refs : List BufferRef) :
    (retainBindings refs).Ensures buffer fun failure after =>
      (failure = none ∨ slotsOnly buffer.bindingCapacity refs →
        after.references = buffer.references ++ (refs.flatMap BufferRef.objects).map .retain) ∧
      ∃ count references, after = { buffer with bindingCount := count, references := references } := by
  induction refs generalizing buffer with
  | nil => exact ⟨fun _ => (List.append_nil _).symm, _, _, rfl⟩
  | cons ref rest ih =>
    refine Ensures.ite (fun hbuffer => ?_) fun hnone => ?_
    · refine Ensures.seq (Ensures.modify ?_)
      refine ih.mono fun failure after ⟨hreferences, count, references, hafter⟩ =>
        ⟨fun hor => ?_, count, references, hafter⟩
      rw [hreferences (hor.imp id fun hslots => ?_)]
      · simp
      · rwa [slotsOnly, if_neg fun h => hbuffer h.1] at hslots
    · rw [not_not] at hnone
      have hobjects : ref.objects = [] := by simp [BufferRef.objects, hnone]
      refine Ensures.bind (ensures_recordBufferRef ref) ?_
      rintro (_ | failure) _ ⟨hslot, count, rfl⟩
      · refine ih.mono fun failure after ⟨hreferences, count, references, hafter⟩ =>
          ⟨fun hor => ?_, count, references, hafter⟩
        rw [hreferences (hor.imp id fun hslots => ?_)]
        · simp [hobjects]
        · rwa [slotsOnly, if_neg (hslot.mp rfl)] at hslots
      · refine Ensures.pure ⟨fun hor => ?_, count, _, rfl⟩
        have hrefused := not_not.mp (mt hslot.mpr (by rintro ⟨⟩))
        have hslots := hor.resolve_left (by rintro ⟨⟩)
        rw [slotsOnly, if_pos hrefused] at hslots
        have hrest : rest.flatMap BufferRef.objects = [] :=
          List.flatMap_eq_nil_iff.mpr fun later hlater => by simp [BufferRef.objects, hslots later hlater]
        simp [hobjects, hrest]

variable {record : CommandRecord} {clean : Prop} {count : ℕ}

/-- A call that fails before it takes a reference. -/
theorem Outcome.failed (failure : Failure) (count : ℕ) :
    Outcome buffer record clean (some failure) { buffer with bindingCount := count } :=
  ⟨rfl, rfl, fun h => absurd h (by rintro ⟨⟩), fun h _ => h⟩

/-- A record that takes its references. -/
theorem Outcome.pushed (objects : List Object) {references : List (Reference Object)}
    (hobjects : objects.Perm record.released) (hfits : record.fits)
    (hreferences : references = buffer.references ++ objects.map .retain) :
    Outcome buffer record clean none
      { buffer with
        bindingCount := count
        commands := buffer.commands ++ [record]
        references := references } := by
  refine ⟨rfl, rfl, fun _ => hfits, fun hsound _ => ?_⟩
  subst hreferences
  refine (Accounts.retain hsound objects).perm ?_
  rw [List.flatMap_append, List.flatMap_singleton]
  exact hobjects.append_left _

/-- A fill. -/
theorem ensures_fillBuffer (host : HostMemory) (allocations : Allocations) (target : BufferRef)
    (pattern : Option ℕ) (patternLength : ℕ) :
    (fillBuffer host allocations target pattern patternLength).Ensures buffer fun failure after =>
      Outcome buffer ((Call.fill target pattern patternLength).written host) clean failure after := by
  cases pattern with
  | none => exact Outcome.failed _ _
  | some address =>
    refine Ensures.ite (fun _ => Outcome.failed _ _) fun _ => ?_
    refine Ensures.bind (ensures_recordBufferRef target) ?_
    rintro (_ | failure) _ ⟨-, count, rfl⟩
    · exact Ensures.ite (fun _ => Outcome.failed _ _) fun _ => Outcome.pushed _ (.refl _) trivial rfl
    · exact Outcome.failed _ _

/-- An update. -/
theorem ensures_updateBuffer (host : HostMemory) (allocations : Allocations) (source : Option ℕ)
    (sourceOffset : ℕ) (target : BufferRef) :
    (updateBuffer host allocations source sourceOffset target).Ensures buffer fun failure after =>
      Outcome buffer ((Call.update source sourceOffset target).written host) clean failure after := by
  refine Ensures.ite (fun _ => Outcome.failed _ _) fun _ => ?_
  refine Ensures.bind (ensures_recordBufferRef target) ?_
  rintro (_ | failure) _ ⟨-, count, rfl⟩
  · refine Ensures.ite (fun _ => Outcome.failed _ _) fun _ =>
      Ensures.ite (fun _ => Outcome.failed _ _) fun hroom => ?_
    refine Outcome.pushed _ (.refl _) (fun hlength hlarge => ?_) rfl
    exact hroom ⟨hlength, .inr hlarge⟩
  · exact Outcome.failed _ _

/-- A copy. -/
theorem ensures_copyBuffer (host : HostMemory) (allocations : Allocations) (source target : BufferRef) :
    (copyBuffer allocations source target).Ensures buffer fun failure after =>
      Outcome buffer ((Call.copy source target).written host) clean failure after := by
  refine Ensures.bind (ensures_recordBufferRef source) ?_
  rintro (_ | failure) _ ⟨-, count, rfl⟩
  · refine Ensures.bind (ensures_recordBufferRef target) ?_
    rintro (_ | failure) _ ⟨-, count, rfl⟩
    · exact Ensures.ite (fun _ => Outcome.failed _ _) fun _ => Outcome.pushed _ (.refl _) trivial rfl
    · exact Outcome.failed _ _
  · exact Outcome.failed _ _

/-- A dispatch. -/
theorem ensures_recordDispatch (dispatch : Dispatch) :
    (recordDispatch allocations dispatch).Ensures buffer fun failure after =>
      Outcome buffer (.dispatch dispatch) (dispatch.Clean buffer.bindingCapacity allocations)
        failure after := by
  let taken : List Object :=
    .executable dispatch.executable.id :: dispatch.bindings.flatMap BufferRef.objects
  have htaken : taken.Perm (CommandRecord.dispatch dispatch).released :=
    (List.perm_append_singleton _ _).symm
  unfold recordDispatch
  cases hshape : requireDispatchShape "command buffer dispatch" dispatch with
  | error failure => exact Outcome.failed _ _
  | ok _ =>
    refine Ensures.ite (fun _ => Outcome.failed _ _) fun hgrow =>
      Ensures.ite (fun _ => Outcome.failed _ _) fun hdata => ?_
    have hstarted : dispatch.Started allocations :=
      ⟨congrArg Except.isOk hshape, Bool.eq_true_of_not_eq_false hgrow,
        fun hlength => Bool.eq_true_of_not_eq_false fun h => hdata ⟨hlength, h⟩⟩
    refine Ensures.ite (fun hfull => ?_) fun _ => ?_
    · refine ⟨rfl, rfl, fun h => absurd h (by rintro ⟨⟩), fun _ hclean => ?_⟩
      obtain ⟨hconstants, hroom⟩ := (hclean hstarted).1 hfull.1
      exact absurd hfull.2 (by simp [hconstants, hroom])
    · refine Ensures.seq (Ensures.modify ?_)
      refine Ensures.bind (ensures_retainBindings dispatch.bindings) ?_
      rintro (_ | failure) _ ⟨hreferences, count, references, rfl⟩
      · refine Outcome.pushed taken htaken trivial ?_
        simpa [taken] using hreferences (.inl rfl)
      · refine Ensures.seq (Ensures.modify (Ensures.pure ?_))
        refine ⟨rfl, rfl, fun h => absurd h (by rintro ⟨⟩), fun hsound hclean => ?_⟩
        have hout : Accounts (buffer.references ++ taken.map .retain)
            ((CommandRecord.dispatch dispatch).released ++
              buffer.commands.flatMap CommandRecord.released) :=
          (Accounts.retain hsound taken).perm
            ((htaken.append_left _).trans List.perm_append_comm)
        have hreferences := hreferences (.inr (hclean hstarted).2)
        rw [CommandBuffer.Sound, hreferences]
        simpa [taken] using hout.release

/-- Every recording call. -/
theorem ensures_record (host : HostMemory) (allocations : Allocations) (call : Call) :
    (call.record host allocations).Ensures buffer fun failure after =>
      Outcome buffer (call.written host) ((Action.record host allocations call).Clean buffer)
        failure after := by
  cases call with
  | fill target pattern patternLength => exact ensures_fillBuffer host allocations target pattern patternLength
  | update source sourceOffset target => exact ensures_updateBuffer host allocations source sourceOffset target
  | copy source target => exact ensures_copyBuffer host allocations source target
  | dispatch => exact ensures_recordDispatch allocations _

end Recording

/-- All references of the records are given back. -/
theorem CommandBuffer.Sound.begin {buffer : CommandBuffer} (h : buffer.Sound) : buffer.begin.Sound := by
  have hall : Accounts buffer.references (buffer.commands.flatMap CommandRecord.released ++ []) := by
    rw [List.append_nil]
    exact h
  exact hall.release

/-- Between two calls: the references are right, and a destroyed command buffer has no records. -/
def CommandBuffer.Valid (buffer : CommandBuffer) : Prop :=
  buffer.Sound ∧ (buffer.destroyed = true → buffer.commands = [])

/-- A clean step. -/
theorem CommandBuffer.Valid.step {buffer after : CommandBuffer} {action : Action}
    (hvalid : buffer.Valid) (hclean : action.Clean buffer)
    (hstep : CommandBuffer.step action buffer = some after) : after.Valid := by
  obtain ⟨h, -⟩ := hvalid
  unfold CommandBuffer.step at hstep
  split at hstep
  · cases hstep
  · rename_i halive
    cases action with
    | record host allocations call =>
      obtain rfl := Option.some.inj hstep
      have houtcome : Outcome buffer (call.written host) ((Action.record host allocations call).Clean buffer)
          (call.record host allocations buffer).1 (call.record host allocations buffer).2 :=
        ensures_record host allocations call
      exact ⟨houtcome.sound h hclean, fun hdestroyed => absurd (houtcome.destroyed ▸ hdestroyed) halive⟩
    | begin =>
      obtain rfl := Option.some.inj hstep
      exact ⟨h.begin, fun _ => rfl⟩
    | destroy =>
      obtain rfl := Option.some.inj hstep
      exact ⟨h.begin, fun _ => rfl⟩

/-- A new command buffer, `lrrt_iree_hal_device_create_command_buffer`. -/
def CommandBuffer.create (bindingCapacity : ℕ) : CommandBuffer := { bindingCapacity := bindingCapacity }

/-- In every run of clean calls, at no time was a reference given back that had not been taken; the
references that are out are those of the records, and after the destruction there are none. -/
theorem references_balanced {bindingCapacity : ℕ} {actions : List Action} {buffer : CommandBuffer}
    (hrun : Run.Steps CommandBuffer.step (fun buffer action => action.Clean buffer)
      (CommandBuffer.create bindingCapacity) actions buffer) :
    Balanced buffer.references ∧
      (∀ object, buffer.references.count (.retain object) =
        buffer.references.count (.release object) +
          (buffer.commands.flatMap CommandRecord.released).count object) ∧
      (buffer.destroyed = true → ∀ object,
        buffer.references.count (.retain object) = buffer.references.count (.release object)) := by
  have hcreated : (CommandBuffer.create bindingCapacity).Valid := ⟨Accounts.nil, fun _ => rfl⟩
  obtain ⟨hsound, hnone⟩ :=
    hrun.invariant (fun _ _ _ hvalid hclean hstep => hvalid.step hclean hstep) hcreated
  refine ⟨hsound.1, hsound.2, fun hdestroyed object => ?_⟩
  rw [hsound.2 object, hnone hdestroyed]
  rfl

/-- A caller with one buffer in an array. -/
def oneBinding : HostMemory where
  refs := fun _ =>
    { buffer := some { id := 7, address := 0, byteLength := 16 }, offset := 0, length := 16 }

/-- A dispatch with one binding and four bytes of constants. -/
def dispatchOne : Call :=
  .dispatch ⟨3, [⟨some 0, ⟨1, 1, 1⟩⟩]⟩ 0 { workgroupCount := ⟨1, 1, 1⟩, workgroupSize := ⟨0, 0, 0⟩ } 0 4
    (1, some 0) false

/-- Recordings that fail for want of memory and of a slot, one that succeeds, a second begin with
another recording, and the destruction. -/
def recordings : List Action :=
  [.record oneBinding { data := false } dispatchOne, .record oneBinding {} dispatchOne,
    .record oneBinding {} (.copy { buffer := none, bufferSlot := 3, offset := 0, length := 4 }
      { buffer := none, offset := 0, length := 4 }),
    .begin, .record oneBinding {} dispatchOne, .destroy]

/-- Both dispatches have taken the buffer and given it back. -/
theorem recordings_references_balanced : ∃ buffer : CommandBuffer,
    Run.Steps CommandBuffer.step (fun buffer action => action.Clean buffer)
      (CommandBuffer.create 0) recordings buffer ∧
      buffer.references.count (.retain (.buffer 7)) = 2 ∧
      buffer.references.count (.release (.buffer 7)) = 2 := by
  obtain ⟨buffer, hexec, hdestroyed, hcount⟩ : ∃ buffer : CommandBuffer,
      Run.exec (Run.checked (fun buffer action => decide (Action.Clean buffer action))
        CommandBuffer.step) recordings (CommandBuffer.create 0) = some buffer ∧
      buffer.destroyed = true ∧ buffer.references.count (.retain (.buffer 7)) = 2 :=
    Run.exists_of_exec (by decide +kernel)
  have hrun : Run.Steps CommandBuffer.step (fun buffer action => action.Clean buffer)
      (CommandBuffer.create 0) recordings buffer :=
    Run.Steps.of_exec_checked (fun _ _ hcheck => of_decide_eq_true hcheck) hexec
  exact ⟨buffer, hrun, hcount,
    ((references_balanced hrun).2.2 hdestroyed (.buffer 7)).symm.trans hcount⟩

/-- There is no memory for the constants of a dispatch, and references that were never taken are
given back. -/
theorem failed_dispatch_releases : ∃ buffer : CommandBuffer,
    Run.exec CommandBuffer.step [.record oneBinding { constants := false } dispatchOne]
      (CommandBuffer.create 0) = some buffer ∧
      buffer.references = [.release (.buffer 7), .release (.executable 3)] :=
  Run.exists_of_exec (by decide +kernel)

end LightRocm.Iree
