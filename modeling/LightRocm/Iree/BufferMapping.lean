import LightRocm.Iree.Device
import LightRocm.Lib.Run

/-!
# Host mappings of a HAL buffer

`map_range`, `flush_range`, `invalidate_range` and `unmap_range` of `hal_driver.c`. All mappings of
a buffer share one copy of it on the host, the shadow. It is refreshed when a mapping can be read,
and whole ranges of it are written back. Bytes are named by their offset in the buffer.
-/

namespace LightRocm.Iree

open ByteMemory

/-- How a call of `lr_memcpy` ends: it copies everything, or it fails after some of the bytes. -/
inductive Memcpy where
  | done
  | failed (copied : ℕ → Bool)

/-- The bytes of a range are copied, as far as the call gets. -/
def Memcpy.apply (call : Memcpy) (offset length : ℕ) (source target : Memory) : Memory :=
  fun byte =>
    if InRange offset length byte then
      match call with
      | .done => source byte
      | .failed copied => if copied byte then source byte else target byte
    else target byte

/-- `lrrt_iree_hal_status_from_lr`. -/
def Memcpy.status : Memcpy → Except Failure Unit
  | .done => .ok ()
  | .failed _ => .error ⟨.internal, "lr_memcpy"⟩

/-- `iree_hal_buffer_mapping_t`, and the bytes that the host has written through it. -/
structure Mapping where
  offset : ℕ
  length : ℕ
  readable : Bool
  writable : Bool
  written : List ℕ := []

/-- `lrrt_iree_hal_buffer_t`, with its memory on the device and its open mappings, which are named
by the address of their structure. -/
structure MappedBuffer where
  allocationSize : ℕ
  device : Memory
  hostShadow : Option Memory := none
  mappings : ℕ → Option Mapping := fun _ => none

/-- `ensure_host_shadow`; `fresh` is the memory that the host allocator returns. -/
def MappedBuffer.ensureHostShadow (fresh : Option Memory) (buffer : MappedBuffer) :
    Except Failure Memory :=
  match buffer.hostShadow with
  | some shadow => .ok shadow
  | none =>
    if 2 ^ 64 - 1 < buffer.allocationSize then
      .error ⟨.outOfRange, "lrrt HAL buffer is too large to host-map"⟩
    else
      match fresh with
      | some shadow => .ok shadow
      | none => .error ⟨.resourceExhausted, "iree_allocator_malloc"⟩

/-- `map_range`, for access without discard. -/
def MappedBuffer.mapRange (name : ℕ) (readable writable : Bool) (offset length : ℕ)
    (fresh : Option Memory) (call : Memcpy) (buffer : MappedBuffer) :
    Except Failure Unit × MappedBuffer :=
  match buffer.ensureHostShadow fresh with
  | .error failure => (.error failure, buffer)
  | .ok shadow =>
    let opened := Function.update buffer.mappings name (some { offset, length, readable, writable })
    if readable then
      let refreshed :=
        { buffer with hostShadow := some (call.apply offset length buffer.device shadow) }
      match call.status with
      | .error failure => (.error failure, refreshed)
      | .ok () => (.ok (), { refreshed with mappings := opened })
    else (.ok (), { buffer with hostShadow := some shadow, mappings := opened })

/-- The copy of a range of the shadow to the device, in `flush_range` and `unmap_range`. -/
def MappedBuffer.writeBack (offset length : ℕ) (call : Memcpy) (buffer : MappedBuffer) :
    Except Failure Unit × MappedBuffer :=
  match buffer.hostShadow with
  | none => (.ok (), buffer)
  | some shadow =>
    (call.status, { buffer with device := call.apply offset length shadow buffer.device })

/-- `unmap_range`, with which a mapping ends. -/
def MappedBuffer.unmapRange (name : ℕ) (mapping : Mapping) (call : Memcpy)
    (buffer : MappedBuffer) : Except Failure Unit × MappedBuffer :=
  let closed := { buffer with mappings := Function.update buffer.mappings name none }
  if mapping.writable then closed.writeBack mapping.offset mapping.length call
  else (.ok (), closed)

/-- `flush_range`. -/
def MappedBuffer.flushRange (offset length : ℕ) (call : Memcpy) (buffer : MappedBuffer) :
    Except Failure Unit × MappedBuffer :=
  buffer.writeBack offset length call

/-- `invalidate_range`. -/
def MappedBuffer.invalidateRange (offset length : ℕ) (fresh : Option Memory) (call : Memcpy)
    (buffer : MappedBuffer) : Except Failure Unit × MappedBuffer :=
  match buffer.ensureHostShadow fresh with
  | .error failure => (.error failure, buffer)
  | .ok shadow =>
    (call.status,
      { buffer with hostShadow := some (call.apply offset length buffer.device shadow) })

/-- The host writes bytes through a mapping. -/
def MappedBuffer.hostWrite (name : ℕ) (mapping : Mapping) (position : ℕ) (bytes : List UInt8)
    (buffer : MappedBuffer) : MappedBuffer :=
  { buffer with
    hostShadow := buffer.hostShadow.map fun shadow => write shadow position bytes
    mappings := Function.update buffer.mappings name
      (some { mapping with written := List.range' position bytes.length ++ mapping.written }) }

/-- What can happen to a buffer. -/
inductive MappingLabel where
  | map (name : ℕ) (readable writable : Bool) (offset length : ℕ) (fresh : Option Memory)
      (call : Memcpy)
  | hostWrite (name position : ℕ) (bytes : List UInt8)
  | flush (name offset length : ℕ) (call : Memcpy)
  | invalidate (offset length : ℕ) (fresh : Option Memory) (call : Memcpy)
  | unmap (name : ℕ) (call : Memcpy)
  | deviceWrite (position : ℕ) (bytes : List UInt8)

/-- The range lies in the range of the mapping. -/
abbrev Mapping.Contains (mapping : Mapping) (offset length : ℕ) : Prop :=
  mapping.offset ≤ offset ∧ offset + length ≤ mapping.offset + mapping.length

/-- One step. The host writes to a mapping and flushes it inside its range. -/
def mappingStep : MappingLabel → MappedBuffer → Option MappedBuffer
  | .map name readable writable offset length fresh call, buffer =>
    if buffer.mappings name = none then
      some (buffer.mapRange name readable writable offset length fresh call).2
    else none
  | .hostWrite name position bytes, buffer =>
    (buffer.mappings name).bind fun mapping =>
      if mapping.Contains position bytes.length then
        some (buffer.hostWrite name mapping position bytes)
      else none
  | .flush name offset length call, buffer =>
    (buffer.mappings name).bind fun mapping =>
      if mapping.Contains offset length then some (buffer.flushRange offset length call).2
      else none
  | .invalidate offset length fresh call, buffer =>
    some (buffer.invalidateRange offset length fresh call).2
  | .unmap name call, buffer =>
    (buffer.mappings name).bind fun mapping => some (buffer.unmapRange name mapping call).2
  | .deviceWrite position bytes, buffer =>
    some { buffer with device := write buffer.device position bytes }

/-- A byte in the range of a mapping. -/
abbrev Mapping.Covers (mapping : Mapping) (byte : ℕ) : Prop :=
  InRange mapping.offset mapping.length byte

variable (buffer : MappedBuffer)

/-- What users owe: open mappings do not overlap, the device leaves the range of an open mapping
alone, and a mapping that cannot be read is filled before it is flushed or unmapped. -/
def MappingAllowed : MappingLabel → Prop
  | .map _ _ _ offset length _ _ => ∀ name mapping, buffer.mappings name = some mapping →
      ∀ byte, InRange offset length byte → ¬ mapping.Covers byte
  | .deviceWrite position bytes => ∀ name mapping, buffer.mappings name = some mapping →
      ∀ byte, InRange position bytes.length byte → ¬ mapping.Covers byte
  | .flush name offset length _ => ∀ mapping, buffer.mappings name = some mapping →
      mapping.readable = false → ∀ byte, InRange offset length byte → byte ∈ mapping.written
  | .unmap name _ => ∀ mapping, buffer.mappings name = some mapping →
      mapping.readable = false → mapping.writable →
      ∀ byte, mapping.Covers byte → byte ∈ mapping.written
  | .hostWrite _ _ _ | .invalidate _ _ _ _ => True

/-- The bytes that a step may change on the device: what the device writes, and what the host has
written through the mapping that is flushed or unmapped. -/
def MappingLabel.MayChange (byte : ℕ) : MappingLabel → Prop
  | .deviceWrite position bytes => InRange position bytes.length byte
  | .flush name _ _ _ | .unmap name _ =>
    ∃ mapping, buffer.mappings name = some mapping ∧ byte ∈ mapping.written
  | .map _ _ _ _ _ _ _ | .hostWrite _ _ _ | .invalidate _ _ _ _ => False

/-- The shadow has the bytes of the device, up to those written through the mapping. -/
def MappedBuffer.Clean (mapping : Mapping) : Prop :=
  ∃ shadow, buffer.hostShadow = some shadow ∧ ∀ byte, mapping.Covers byte →
    byte ∉ mapping.written → shadow byte = buffer.device byte

/-- The invariant of a buffer with mappings. -/
structure MappedBuffer.Inv (buffer : MappedBuffer) : Prop where
  apart : ∀ name name' mapping mapping', name ≠ name' → buffer.mappings name = some mapping →
    buffer.mappings name' = some mapping' → ∀ byte, mapping.Covers byte → ¬ mapping'.Covers byte
  clean : ∀ name mapping, buffer.mappings name = some mapping → mapping.readable →
    buffer.Clean mapping

/-- A copy leaves a byte as it was or takes it from the source. -/
theorem Memcpy.apply_cases (call : Memcpy) (offset length : ℕ) (source target : Memory)
    (byte : ℕ) :
    call.apply offset length source target byte = target byte ∨
      InRange offset length byte ∧
        call.apply offset length source target byte = source byte := by
  unfold Memcpy.apply
  by_cases hrange : InRange offset length byte
  · cases call with
    | done => exact .inr ⟨hrange, if_pos hrange⟩
    | failed copied => by_cases hcopied : copied byte <;> simp [hrange, hcopied]
  · exact .inl (if_neg hrange)

variable {call : Memcpy}

/-- Two copies of a buffer that agree on a byte agree on it after a copy between them. -/
theorem Memcpy.apply_eq {offset length : ℕ} {source target : Memory} {byte : ℕ}
    (h : source byte = target byte) : call.apply offset length source target byte = target byte :=
  (call.apply_cases offset length source target byte).elim id fun hcopied => hcopied.2.trans h

section Invariant

variable {buffer : MappedBuffer} {name offset length position : ℕ} {mapping : Mapping}
  {call : Memcpy} {fresh : Option Memory} {shadow : Memory} {bytes : List UInt8}

/-- A shadow that takes some bytes from the device stays clean. -/
theorem MappedBuffer.Inv.setShadow (h : buffer.Inv)
    (hshadow : buffer.ensureHostShadow fresh = .ok shadow) {shadow' : Memory}
    (hbytes : ∀ byte, shadow' byte = shadow byte ∨ shadow' byte = buffer.device byte) :
    MappedBuffer.Inv { buffer with hostShadow := some shadow' } := by
  refine ⟨h.apart, fun name mapping hmapping hreadable => ?_⟩
  obtain ⟨before, hbefore, hclean⟩ := h.clean name mapping hmapping hreadable
  obtain rfl : before = shadow := by
    simpa [MappedBuffer.ensureHostShadow, hbefore] using hshadow
  refine ⟨_, rfl, fun byte hcovers hwritten => ?_⟩
  exact (hbytes byte).elim (fun hsame => hsame.trans (hclean byte hcovers hwritten)) id

theorem MappedBuffer.Inv.refresh (h : buffer.Inv)
    (hshadow : buffer.ensureHostShadow fresh = .ok shadow) (call : Memcpy) (offset length : ℕ) :
    MappedBuffer.Inv { buffer with
      hostShadow := some (call.apply offset length buffer.device shadow) } :=
  h.setShadow hshadow fun byte => (call.apply_cases _ _ _ _ byte).imp_right And.right

/-- A mapping is opened, changed or closed: what is there now is apart from the others, and clean if
it can be read. -/
theorem MappedBuffer.Inv.update (h : buffer.Inv) (name : ℕ) (entry : Option Mapping)
    (hapart : ∀ mapping, entry = some mapping → ∀ other mapping', other ≠ name →
      buffer.mappings other = some mapping' → ∀ byte, mapping.Covers byte → ¬ mapping'.Covers byte)
    (hclean : ∀ mapping, entry = some mapping → mapping.readable → buffer.Clean mapping) :
    MappedBuffer.Inv { buffer with mappings := Function.update buffer.mappings name entry } := by
  constructor
  · intro first second m m' hne hm hm' byte hcovers hcovers'
    dsimp only at hm hm'
    by_cases hfirst : first = name
    · subst hfirst
      rw [Function.update_self] at hm
      rw [Function.update_of_ne hne.symm] at hm'
      exact hapart m hm second m' hne.symm hm' byte hcovers hcovers'
    · rw [Function.update_of_ne hfirst] at hm
      by_cases hsecond : second = name
      · subst hsecond
        rw [Function.update_self] at hm'
        exact hapart m' hm' first m hfirst hm byte hcovers' hcovers
      · rw [Function.update_of_ne hsecond] at hm'
        exact h.apart first second m m' hne hm hm' byte hcovers hcovers'
  · intro other m hm hreadable
    dsimp only at hm
    by_cases hother : other = name
    · subst hother
      rw [Function.update_self] at hm
      exact hclean m hm hreadable
    · rw [Function.update_of_ne hother] at hm
      exact h.clean other m hm hreadable

theorem MappedBuffer.Inv.mapRange {readable writable : Bool} (h : buffer.Inv)
    (hapart : ∀ name mapping, buffer.mappings name = some mapping →
      ∀ byte, InRange offset length byte → ¬ mapping.Covers byte) :
    (buffer.mapRange name readable writable offset length fresh call).2.Inv := by
  unfold MappedBuffer.mapRange
  cases hshadow : buffer.ensureHostShadow fresh with
  | error failure => exact h
  | ok shadow =>
    cases readable with
    | true =>
      cases call with
      | failed copied => exact h.refresh hshadow _ _ _
      | done =>
        refine (h.refresh hshadow .done offset length).update name _ ?_ ?_
        · rintro mapping ⟨⟩ other mapping' - hother
          exact hapart other mapping' hother
        · rintro mapping ⟨⟩ -
          exact ⟨_, rfl, fun byte hcovers _ => if_pos hcovers⟩
    | false =>
      refine (h.setShadow hshadow fun _ => .inl rfl).update name _ ?_ ?_
      · rintro mapping ⟨⟩ other mapping' - hother
        exact hapart other mapping' hother
      · rintro mapping ⟨⟩ ⟨⟩

/-- Writing the shadow back to the device keeps it clean. -/
theorem MappedBuffer.Inv.writeBack (h : buffer.Inv) :
    (buffer.writeBack offset length call).2.Inv := by
  unfold MappedBuffer.writeBack
  cases hshadow : buffer.hostShadow with
  | none => exact h
  | some shadow =>
    refine ⟨h.apart, fun name mapping hmapping hreadable => ?_⟩
    obtain ⟨before, hbefore, hclean⟩ := h.clean name mapping hmapping hreadable
    obtain rfl := Option.some.inj (hbefore.symm.trans hshadow)
    refine ⟨before, rfl, fun byte hcovers hwritten => ?_⟩
    have hsame := hclean byte hcovers hwritten
    exact hsame.trans (Memcpy.apply_eq hsame).symm

theorem MappedBuffer.Inv.unmapRange (h : buffer.Inv) :
    (buffer.unmapRange name mapping call).2.Inv := by
  have hclosed := h.update name none (by rintro mapping ⟨⟩) (by rintro mapping ⟨⟩)
  unfold MappedBuffer.unmapRange
  dsimp only
  split
  · exact hclosed.writeBack
  · exact hclosed

/-- Writes of the host through one mapping leave the others clean. -/
theorem MappedBuffer.Inv.hostWrite (h : buffer.Inv) (hmapping : buffer.mappings name = some mapping)
    (hcontains : mapping.Contains position bytes.length) :
    (buffer.hostWrite name mapping position bytes).Inv := by
  have hmarked := h.update name
    (some { mapping with written := List.range' position bytes.length ++ mapping.written })
    (by
      rintro _ ⟨⟩ other mapping' hne hother
      exact h.apart name other mapping mapping' hne.symm hmapping hother)
    (by
      rintro _ ⟨⟩ hreadable
      obtain ⟨shadow, hshadow, hclean⟩ := h.clean name mapping hmapping hreadable
      refine ⟨shadow, hshadow, fun byte hcovers hwritten => hclean byte hcovers fun hmem => ?_⟩
      exact hwritten (List.mem_append_right _ hmem))
  refine ⟨hmarked.apart, fun other mapping' hother hreadable => ?_⟩
  obtain ⟨shadow, hshadow, hclean⟩ := hmarked.clean other mapping' hother hreadable
  refine ⟨write shadow position bytes,
    congrArg (Option.map fun shadow => write shadow position bytes) hshadow,
    fun byte hcovers hwritten => ?_⟩
  refine (write_outside fun hrange => ?_).trans (hclean byte hcovers hwritten)
  -- A byte that the host writes is recorded in its mapping, and no other mapping covers it.
  by_cases hname : other = name
  · subst hname
    obtain rfl : _ = mapping' := by
      simpa [MappedBuffer.hostWrite] using hother
    refine hwritten (List.mem_append_left _ (List.mem_range'_1.mpr ?_))
    unfold InRange at hrange
    omega
  · have hbefore : buffer.mappings other = some mapping' := by
      simpa [MappedBuffer.hostWrite, hname] using hother
    have hinside : mapping.Covers byte := by
      unfold Mapping.Covers InRange at *
      omega
    exact h.apart name other mapping mapping' (Ne.symm hname) hmapping hbefore byte hinside hcovers

theorem MappedBuffer.Inv.deviceWrite (h : buffer.Inv)
    (hapart : ∀ name mapping, buffer.mappings name = some mapping →
      ∀ byte, InRange position bytes.length byte → ¬ mapping.Covers byte) :
    MappedBuffer.Inv { buffer with device := write buffer.device position bytes } := by
  refine ⟨h.apart, fun name mapping hmapping hreadable => ?_⟩
  obtain ⟨shadow, hshadow, hclean⟩ := h.clean name mapping hmapping hreadable
  refine ⟨shadow, hshadow, fun byte hcovers hwritten => ?_⟩
  have houtside : ¬ InRange position bytes.length byte :=
    fun hrange => hapart name mapping hmapping byte hrange hcovers
  exact (hclean byte hcovers hwritten).trans (write_outside houtside).symm

end Invariant

/-- Every allowed step keeps the invariant. -/
theorem MappedBuffer.Inv.step {buffer after : MappedBuffer} {label : MappingLabel}
    (h : buffer.Inv) (hallowed : MappingAllowed buffer label)
    (hstep : mappingStep label buffer = some after) : after.Inv := by
  cases label with
  | map name readable writable offset length fresh call =>
    obtain ⟨-, rfl⟩ := Run.of_guard hstep
    exact h.mapRange hallowed
  | hostWrite name position bytes =>
    obtain ⟨mapping, hmapping, hstep⟩ := Option.bind_eq_some_iff.mp hstep
    obtain ⟨hcontains, rfl⟩ := Run.of_guard hstep
    exact h.hostWrite hmapping hcontains
  | flush name offset length call =>
    obtain ⟨mapping, -, hstep⟩ := Option.bind_eq_some_iff.mp hstep
    obtain ⟨-, rfl⟩ := Run.of_guard hstep
    exact h.writeBack
  | invalidate offset length fresh call =>
    obtain rfl := Option.some.inj hstep
    unfold MappedBuffer.invalidateRange
    cases hshadow : buffer.ensureHostShadow fresh with
    | error failure => exact h
    | ok shadow => exact h.refresh hshadow call offset length
  | unmap name call =>
    obtain ⟨mapping, -, hstep⟩ := Option.bind_eq_some_iff.mp hstep
    obtain rfl := Option.some.inj hstep
    exact h.unmapRange
  | deviceWrite position bytes =>
    obtain rfl := Option.some.inj hstep
    exact h.deviceWrite hallowed

variable {buffer : MappedBuffer}

theorem MappedBuffer.mapRange_device {name offset length : ℕ} {readable writable : Bool}
    {fresh : Option Memory} :
    (buffer.mapRange name readable writable offset length fresh call).2.device =
      buffer.device := by
  unfold MappedBuffer.mapRange
  cases buffer.ensureHostShadow fresh with
  | error failure => rfl
  | ok shadow =>
    cases readable with
    | false => rfl
    | true => cases call <;> rfl

theorem MappedBuffer.invalidateRange_device {offset length : ℕ} {fresh : Option Memory} :
    (buffer.invalidateRange offset length fresh call).2.device = buffer.device := by
  unfold MappedBuffer.invalidateRange
  cases buffer.ensureHostShadow fresh <;> rfl

theorem MappedBuffer.unmapRange_device {name : ℕ} {mapping : Mapping} :
    (buffer.unmapRange name mapping call).2.device =
      if mapping.writable then (buffer.writeBack mapping.offset mapping.length call).2.device
      else buffer.device := by
  unfold MappedBuffer.unmapRange MappedBuffer.writeBack
  cases mapping.writable <;> cases buffer.hostShadow <;> rfl

/-- What a write back of a part of a mapping changes has been written through the mapping. -/
theorem MappedBuffer.Inv.writeBack_changes {name offset length byte : ℕ} {mapping : Mapping}
    (h : buffer.Inv) (hmapping : buffer.mappings name = some mapping)
    (hcontains : mapping.Contains offset length)
    (hfilled : mapping.readable = false → ∀ byte, InRange offset length byte →
      byte ∈ mapping.written)
    (hchanged : (buffer.writeBack offset length call).2.device byte ≠ buffer.device byte) :
    byte ∈ mapping.written := by
  unfold MappedBuffer.writeBack at hchanged
  cases hshadow : buffer.hostShadow with
  | none => simp [hshadow] at hchanged
  | some shadow =>
    simp only [hshadow] at hchanged
    obtain hsame | ⟨hrange, hcopied⟩ :=
      call.apply_cases offset length shadow buffer.device byte
    · exact absurd hsame hchanged
    cases hreadable : mapping.readable with
    | false => exact hfilled hreadable byte hrange
    | true =>
      obtain ⟨before, hbefore, hclean⟩ := h.clean name mapping hmapping hreadable
      obtain rfl := Option.some.inj (hbefore.symm.trans hshadow)
      have hcovers : mapping.Covers byte := by
        unfold Mapping.Covers InRange at *
        omega
      by_contra hwritten
      exact hchanged (hcopied.trans (hclean byte hcovers hwritten))

/-- After any run of allowed steps, an allowed step changes on the device only what the device
writes, or what the host has written through the mapping that is flushed or unmapped. -/
theorem mappings_change_written_bytes {size : ℕ} {device : Memory} {labels : List MappingLabel}
    {buffer after : MappedBuffer} {label : MappingLabel} {byte : ℕ}
    (hrun : Run.Steps mappingStep MappingAllowed { allocationSize := size, device } labels buffer)
    (hallowed : MappingAllowed buffer label) (hstep : mappingStep label buffer = some after)
    (hchanged : after.device byte ≠ buffer.device byte) : label.MayChange buffer byte := by
  have hinit : MappedBuffer.Inv { allocationSize := size, device } :=
    ⟨by rintro _ _ _ _ _ ⟨⟩, by rintro _ _ ⟨⟩⟩
  have hinv : buffer.Inv :=
    hrun.invariant (fun _ _ _ h hallowed hstep => h.step hallowed hstep) hinit
  cases label with
  | map name readable writable offset length fresh call =>
    obtain ⟨-, rfl⟩ := Run.of_guard hstep
    exact absurd (congrFun MappedBuffer.mapRange_device byte) hchanged
  | hostWrite name position bytes =>
    obtain ⟨mapping, -, hstep⟩ := Option.bind_eq_some_iff.mp hstep
    obtain ⟨-, rfl⟩ := Run.of_guard hstep
    exact hchanged rfl
  | flush name offset length call =>
    obtain ⟨mapping, hmapping, hstep⟩ := Option.bind_eq_some_iff.mp hstep
    obtain ⟨hcontains, rfl⟩ := Run.of_guard hstep
    exact ⟨mapping, hmapping,
      hinv.writeBack_changes hmapping hcontains (hallowed mapping hmapping) hchanged⟩
  | invalidate offset length fresh call =>
    obtain rfl := Option.some.inj hstep
    exact absurd (congrFun MappedBuffer.invalidateRange_device byte) hchanged
  | unmap name call =>
    obtain ⟨mapping, hmapping, hstep⟩ := Option.bind_eq_some_iff.mp hstep
    obtain rfl := Option.some.inj hstep
    rw [MappedBuffer.unmapRange_device] at hchanged
    split_ifs at hchanged with hwritable
    · exact ⟨mapping, hmapping, hinv.writeBack_changes hmapping ⟨le_rfl, le_rfl⟩
        (fun hreadable => hallowed mapping hmapping hreadable hwritable) hchanged⟩
    · exact absurd rfl hchanged
  | deviceWrite position bytes =>
    obtain rfl := Option.some.inj hstep
    exact inRange_of_write_ne hchanged

/-- A mapping that can be read and written: the host changes one byte of two, and unmaps. -/
theorem readable_mapping_changes_written_byte : ∃ buffer after,
    Run.Steps mappingStep MappingAllowed { allocationSize := 2, device := fun _ => 7 }
      [.map 0 true true 0 2 (some fun _ => 0) .done, .hostWrite 0 1 [5]] buffer ∧
    mappingStep (.unmap 0 .done) buffer = some after ∧ after.device 1 = 5 ∧
      ∀ byte, after.device byte ≠ buffer.device byte →
        MappingLabel.MayChange buffer byte (.unmap 0 .done) := by
  obtain ⟨buffer, after, hrun, hallowed, hstep, hbyte⟩ : ∃ buffer after : MappedBuffer,
      Run.Steps mappingStep MappingAllowed { allocationSize := 2, device := fun _ => 7 }
        [.map 0 true true 0 2 (some fun _ => 0) .done, .hostWrite 0 1 [5]] buffer ∧
      MappingAllowed buffer (.unmap 0 .done) ∧ mappingStep (.unmap 0 .done) buffer = some after ∧
      after.device 1 = 5 :=
    ⟨_, _, .cons (by rintro _ _ ⟨⟩) rfl (.cons trivial rfl (.nil _)), by rintro _ ⟨⟩ ⟨⟩, rfl, rfl⟩
  exact ⟨buffer, after, hrun, hstep, hbyte,
    fun byte hchanged => mappings_change_written_bytes hrun hallowed hstep hchanged⟩

/-- A mapping for writing only: bytes that the host has not written come from the shadow, which was
never filled. -/
theorem write_only_mapping_changes_other_byte :
    ∃ buffer after, Run.exec mappingStep
        [.map 0 false true 0 2 (some fun _ => 0) .done, .hostWrite 0 1 [5]]
        { allocationSize := 2, device := fun _ => 7 } = some buffer ∧
      mappingStep (.unmap 0 .done) buffer = some after ∧
      (buffer.mappings 0).map Mapping.written = some [1] ∧
      buffer.device 0 = 7 ∧ after.device 0 = 0 :=
  ⟨_, _, rfl, rfl, rfl, rfl, rfl⟩

end LightRocm.Iree
