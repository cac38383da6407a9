import LightRocm.Aql.Ring

/-!
# Safety of the ring

Between two submissions the write index is the number of published packets. A
submission that has found room stays within a round of the read index, whatever
the consumer does, so none of its writes meets a slot whose packet has not been
consumed.
-/

namespace LightRocm.Aql.Ring

open SlotRing

variable {Sig : Type} {s t : Sys Sig} {queue : AqlQueueProducerOps Sig} {request : Request Sig}
  {packetCount : ℕ}

/-- The current submission has changed neither the ring nor the write index nor the doorbell. -/
structure Unchanged (s : Sys Sig) : Prop where
  slots : s.memory.slots = s.start.slots
  writeIndex : s.memory.writeIndex = s.start.writeIndex
  doorbells : s.memory.doorbells = s.start.doorbells

/-- The current submission has published its first packets: `published` are done, `left` are
reserved. -/
structure Writing (s : Sys Sig) (request : Request Sig) (first : ℕ)
    (published left : List (AqlPacket Sig)) : Prop where
  begins : first = s.start.writeIndex
  packets : request.packets = published ++ left
  log : ∃ before, s.log = before ++ published ∧ before.length = first
  writeIndex : s.memory.writeIndex = first + request.count
  room : s.memory.writeIndex ≤ s.memory.readIndex + s.packetCount
  count_le : request.count ≤ s.packetCount
  power : s.packetCount.isPowerOfTwo
  doorbells : s.memory.doorbells = s.start.doorbells

/-- A submission that has passed its checks can be reserved in a ring with room. -/
structure Accepted (s : Sys Sig) (queue : AqlQueueProducerOps Sig) (request : Request Sig) :
    Prop where
  packetCount : queue.packetCount = s.packetCount
  power : s.packetCount.isPowerOfTwo
  count_pos : 0 < request.count
  count_le : request.count ≤ s.packetCount

/-- What the producer knows at a point of its submission. -/
def Fits (s : Sys Sig) : Pc Sig → Prop
  | .idle => s.memory.writeIndex = s.log.length
  | .ensureRead queue request =>
    s.memory.writeIndex = s.log.length ∧ Unchanged s ∧ queue.packetCount = s.packetCount ∧
      request.count = 1
  | .ensureWrite queue request readIndex =>
    (s.memory.writeIndex = s.log.length ∧ Unchanged s ∧ queue.packetCount = s.packetCount ∧
      request.count = 1) ∧ 0 < s.packetCount ∧ readIndex ≤ s.memory.readIndex
  | .loadRead queue request =>
    s.memory.writeIndex = s.log.length ∧ Unchanged s ∧ Accepted s queue request
  | .loadWrite queue request readIndex =>
    (s.memory.writeIndex = s.log.length ∧ Unchanged s ∧ Accepted s queue request) ∧
      readIndex ≤ s.memory.readIndex
  | .reserve queue request =>
    (s.memory.writeIndex = s.log.length ∧ Unchanged s ∧ Accepted s queue request) ∧
      s.memory.writeIndex + request.count ≤ s.memory.readIndex + s.packetCount
  | .invalidate request first packetId packet rest =>
    packetId = s.log.length ∧ ∃ published, Writing s request first published (packet :: rest)
  | .copy request first packetId packet rest =>
    packetId = s.log.length ∧ ∃ published, Writing s request first published (packet :: rest)
  | .publish request first packetId packet rest =>
    (packetId = s.log.length ∧ ∃ published, Writing s request first published (packet :: rest)) ∧
      (s.memory.slots (slot s.packetCount packetId)).body = some packet
  | .ringDoorbell request first => 0 < request.count ∧ Writing s request first request.packets []
  | .returned request .none packetId =>
    0 < request.count ∧ ∃ before, s.log = before ++ request.packets ∧
      before.length = s.start.writeIndex ∧ s.memory.writeIndex = s.log.length ∧
      request.count ≤ s.packetCount ∧ s.packetCount.isPowerOfTwo ∧ packetId + 1 = s.log.length ∧
      s.memory.doorbells = s.start.doorbells ++ [⟨packetId, s.log.length⟩]
  | .returned _ _ _ | .abandoned => s.memory.writeIndex = s.log.length ∧ Unchanged s

/-- The invariant of the ring. -/
structure Inv (s : Sys Sig) : Prop where
  /-- The consumer is not ahead of the producer. -/
  readIndex_le : s.memory.readIndex ≤ s.log.length
  /-- The packets that have not been consumed are in their slots. -/
  holds : Holds s.packetCount s.memory.slots (s.log.map AqlPacket.slot) s.memory.readIndex
  fits : Fits s s.pc

@[simp] theorem Sys.write_slots_self (s : Sys Sig) (packetId : ℕ) (f : Slot Sig → Slot Sig) :
    (s.write packetId f).slots (slot s.packetCount packetId) =
      f (s.memory.slots (slot s.packetCount packetId)) :=
  Function.update_self ..

/-! ## The checks -/

theorem isPowerOfTwo_of_check {value : ℕ} (h : isPowerOfTwo value = true) : value.isPowerOfTwo := by
  simp only [isPowerOfTwo, Bool.and_eq_true, decide_eq_true_eq, ne_eq] at h
  exact (Nat.and_sub_one_eq_zero_iff_isPowerOfTwo h.1).mp h.2

/-- A submission that has passed its checks. -/
theorem accepted_of_validate (h : request.validate queue = .none)
    (hcount : queue.packetCount = s.packetCount) : Accepted s queue request := by
  have hqueue : ∀ {valid : Bool} {other : AqlSubmitError},
      (if !(valid && isPowerOfTwo queue.packetCount) then .invalidQueue else other) = .none →
      s.packetCount.isPowerOfTwo ∧ other = AqlSubmitError.none := by
    intro valid other hother
    cases hvalid : valid && isPowerOfTwo queue.packetCount with
    | false => rw [hvalid] at hother; cases hother
    | true =>
      rw [hvalid] at hother
      refine ⟨?_, hother⟩
      rw [← hcount]
      exact isPowerOfTwo_of_check (Bool.and_eq_true_iff.mp hvalid).2
  cases request with
  | kernelDispatch parameters ordering prevalidated =>
    obtain ⟨hpower, -⟩ := hqueue h
    exact ⟨hcount, hpower, Nat.zero_lt_one, Nat.pos_of_isPowerOfTwo hpower⟩
  | barriersAnd barriers =>
    obtain ⟨hpower, hrest⟩ := hqueue h
    split_ifs at hrest with hempty hvalid hlong
    refine ⟨hcount, hpower, ?_, ?_⟩
    · rw [Request.count, Request.packets, List.length_map]
      exact List.length_pos_iff.mpr fun hnil => hempty (by rw [hnil]; rfl)
    · rw [Request.count, Request.packets, List.length_map]
      omega
  | barriersAndKernelDispatch barriers parameters ordering =>
    obtain ⟨hpower, hrest⟩ := hqueue h
    split_ifs at hrest with hempty hvalid hdispatch hlong
    refine ⟨hcount, hpower, ?_, ?_⟩
    · rw [Request.count, Request.packets, List.length_append, List.length_singleton]
      exact Nat.succ_pos _
    · rw [Request.count, Request.packets, List.length_append, List.length_map,
        List.length_singleton]
      omega

/-- A ring that is not full has room for the submission. -/
theorem room_of_not_full {readIndex writeIndex : ℕ} (haccepted : Accepted s queue request)
    (h : request.full queue.packetCount readIndex writeIndex = false) :
    writeIndex + request.count ≤ readIndex + s.packetCount := by
  have hcount := haccepted.packetCount
  have hle := haccepted.count_le
  cases request with
  | kernelDispatch =>
    simp only [Request.full, Bool.or_eq_false_iff, decide_eq_false_iff_not] at h
    change writeIndex + 1 ≤ _
    omega
  | barriersAnd | barriersAndKernelDispatch =>
    simp only [Request.full, Bool.or_eq_false_iff, decide_eq_false_iff_not] at h
    omega

/-! ## The steps -/

variable {packet : AqlPacket Sig}

/-- The next packet of a submission has a slot that nobody needs. -/
theorem Writing.lt_room {first : ℕ} {published rest : List (AqlPacket Sig)}
    (h : Writing s request first published (packet :: rest)) :
    s.log.length < s.memory.readIndex + s.packetCount := by
  obtain ⟨before, hlog, hbefore⟩ := h.log
  have hroom := h.room
  have hcount : request.count = published.length + (rest.length + 1) := by
    rw [Request.count, h.packets, List.length_append, List.length_cons]
  rw [h.writeIndex, hcount] at hroom
  rw [hlog, List.length_append]
  omega

/-- A write to the slot of the next packet keeps the packets that have not been consumed. -/
theorem Inv.holds_write (h : Inv s) {first : ℕ} {published rest : List (AqlPacket Sig)}
    (hwriting : Writing s request first published (packet :: rest)) (f : Slot Sig → Slot Sig) :
    Holds s.packetCount (s.write s.log.length f).slots (s.log.map AqlPacket.slot)
      s.memory.readIndex := by
  have hwrite := h.holds.write hwriting.power (by rw [List.length_map]; exact hwriting.lt_room)
    (f (s.memory.slots (slot s.packetCount s.log.length)))
  rwa [List.length_map] at hwrite

/-- What the producer knows stays true while only the consumer moves. -/
theorem Fits.frame {pc : Pc Sig} (h : Fits s pc) (hcount : t.packetCount = s.packetCount)
    (hstart : t.start = s.start) (hlog : t.log = s.log)
    (hslots : t.memory.slots = s.memory.slots)
    (hwrite : t.memory.writeIndex = s.memory.writeIndex)
    (hdoorbells : t.memory.doorbells = s.memory.doorbells)
    (hread : s.memory.readIndex ≤ t.memory.readIndex) : Fits t pc := by
  have hunchanged : Unchanged s → Unchanged t := by
    intro hold
    exact ⟨by rw [hslots, hstart, hold.slots], by rw [hwrite, hstart, hold.writeIndex],
      by rw [hdoorbells, hstart, hold.doorbells]⟩
  have haccepted : ∀ {queue request}, Accepted s queue request → Accepted t queue request :=
    fun hold => ⟨hold.packetCount.trans hcount.symm, hcount ▸ hold.power, hold.count_pos,
      hcount ▸ hold.count_le⟩
  have hwriting : ∀ {request first published left}, Writing s request first published left →
      Writing t request first published left := by
    intro request first published left hold
    refine ⟨by rw [hstart]; exact hold.begins, hold.packets, by rw [hlog]; exact hold.log,
      hwrite.trans hold.writeIndex, ?_, hcount ▸ hold.count_le, hcount ▸ hold.power,
      by rw [hdoorbells, hstart]; exact hold.doorbells⟩
    rw [hwrite, hcount]
    exact hold.room.trans (Nat.add_le_add_right hread _)
  have hindex : s.memory.writeIndex = s.log.length → t.memory.writeIndex = t.log.length := by
    rw [hwrite, hlog]
    exact id
  cases pc with
  | idle => exact hindex h
  | ensureRead => exact ⟨hindex h.1, hunchanged h.2.1, h.2.2.1.trans hcount.symm, h.2.2.2⟩
  | ensureWrite =>
    exact ⟨⟨hindex h.1.1, hunchanged h.1.2.1, h.1.2.2.1.trans hcount.symm, h.1.2.2.2⟩,
      hcount ▸ h.2.1, h.2.2.trans hread⟩
  | loadRead => exact ⟨hindex h.1, hunchanged h.2.1, haccepted h.2.2⟩
  | loadWrite =>
    exact ⟨⟨hindex h.1.1, hunchanged h.1.2.1, haccepted h.1.2.2⟩, h.2.trans hread⟩
  | reserve =>
    refine ⟨⟨hindex h.1.1, hunchanged h.1.2.1, haccepted h.1.2.2⟩, ?_⟩
    rw [hwrite, hcount]
    exact h.2.trans (Nat.add_le_add_right hread _)
  | invalidate | copy =>
    obtain ⟨hid, published, hold⟩ := h
    exact ⟨by rw [hlog]; exact hid, published, hwriting hold⟩
  | publish =>
    obtain ⟨⟨hid, published, hold⟩, hbody⟩ := h
    exact ⟨⟨by rw [hlog]; exact hid, published, hwriting hold⟩, by rw [hslots, hcount]; exact hbody⟩
  | ringDoorbell => exact ⟨h.1, hwriting h.2⟩
  | returned request error packetId =>
    cases error with
    | none =>
      simp only [Fits, hlog, hstart, hwrite, hcount, hdoorbells]
      exact h
    | invalidPacket | invalidQueue | queueFull | reserveFailed =>
      exact ⟨hindex h.1, hunchanged h.2⟩
  | abandoned => exact ⟨hindex h.1, hunchanged h.2⟩

/-- A submission that has been checked. -/
theorem fits_begin (hwrite : s.memory.writeIndex = s.log.length) (hunchanged : Unchanged s)
    (hcount : queue.packetCount = s.packetCount) {prevalidated : Bool}
    (hroom : prevalidated = true →
      s.memory.writeIndex + request.count ≤ s.memory.readIndex + s.packetCount) :
    Fits s (begin queue request prevalidated) := by
  unfold begin
  cases herror : request.validate queue with
  | none =>
    have haccepted : Accepted s queue request := accepted_of_validate herror hcount
    cases prevalidated with
    | false => exact ⟨hwrite, hunchanged, haccepted⟩
    | true => exact ⟨⟨hwrite, hunchanged, haccepted⟩, hroom rfl⟩
  | invalidPacket | invalidQueue | queueFull | reserveFailed => exact ⟨hwrite, hunchanged⟩

/-- A step of the producer that only reads. -/
theorem Inv.goto (h : Inv s) {pc : Pc Sig} (hfits : Fits s pc) : Inv { s with pc := pc } :=
  ⟨h.readIndex_le, h.holds, hfits.frame rfl rfl rfl rfl rfl rfl le_rfl⟩

/-- A write of the producer to the slot of its next packet. -/
theorem Inv.write (h : Inv s) {first : ℕ} {published rest : List (AqlPacket Sig)}
    (hwriting : Writing s request first published (packet :: rest)) (f : Slot Sig → Slot Sig)
    {pc : Pc Sig} (hfits : Fits { s with memory := s.write s.log.length f } pc) :
    Inv { s with memory := s.write s.log.length f, pc := pc } :=
  ⟨h.readIndex_le, h.holds_write hwriting f, hfits.frame rfl rfl rfl rfl rfl rfl le_rfl⟩

/-- The producer publishes the packet that it has written. -/
theorem Inv.publish (h : Inv s) {first packetId : ℕ} {rest : List (AqlPacket Sig)}
    (hpc : s.pc = .publish request first packetId packet rest) {again : Bool}
    (hstep : produce again s = some t) : Inv t := by
  have hfits := h.fits
  rw [hpc] at hfits
  obtain ⟨⟨rfl, published, hwriting⟩, hbody⟩ := hfits
  rw [produce, hpc] at hstep
  obtain rfl := Option.some.inj hstep
  have hholds := h.holds_write hwriting fun slot => { slot with header := packet.header }
  have hslot : (s.write s.log.length fun slot => { slot with header := packet.header }).slots
      (slot s.packetCount (s.log.map AqlPacket.slot).length) = packet.slot := by
    rw [List.length_map, Sys.write_slots_self, hbody]
    rfl
  have hlog : ∃ before, s.log ++ [packet] = before ++ (published ++ [packet]) ∧
      before.length = first := by
    obtain ⟨before, hold, hlength⟩ := hwriting.log
    exact ⟨before, by rw [hold, List.append_assoc], hlength⟩
  have hpackets : request.packets = (published ++ [packet]) ++ rest := by
    rw [hwriting.packets, List.append_assoc]
    rfl
  refine ⟨?_, ?_, ?_⟩
  · rw [List.length_append]
    exact h.readIndex_le.trans (Nat.le_add_right _ _)
  · rw [List.map_append]
    exact hholds.snoc hslot
  · cases rest with
    | nil =>
      rw [List.append_nil] at hpackets
      refine ⟨?_, hwriting.begins, (List.append_nil _).symm, ?_, hwriting.writeIndex,
        hwriting.room, hwriting.count_le, hwriting.power, hwriting.doorbells⟩
      · rw [Request.count, hpackets, List.length_append, List.length_singleton]
        exact Nat.succ_pos _
      · rw [hpackets]
        exact hlog
    | cons next rest =>
      refine ⟨?_, published ++ [packet], hwriting.begins, hpackets, hlog, hwriting.writeIndex,
        hwriting.room, hwriting.count_le, hwriting.power, hwriting.doorbells⟩
      rw [List.length_append, List.length_singleton]

/-- Every access of the producer keeps the invariant. -/
theorem Inv.produce (h : Inv s) {again : Bool} (hstep : Ring.produce again s = some t) : Inv t := by
  have hfits := h.fits
  cases hpc : s.pc with
  | idle => rw [Ring.produce, hpc] at hstep; cases hstep
  | publish => exact h.publish hpc hstep
  | ensureRead queue request =>
    rw [hpc] at hfits
    rw [Ring.produce, hpc] at hstep
    dsimp only at hstep
    split at hstep
    · rename_i hagain
      obtain rfl := Option.some.inj hstep
      have hpos : 1 ≤ queue.packetCount := of_decide_eq_true (Bool.and_eq_true_iff.mp hagain).2
      exact h.goto ⟨hfits, hfits.2.2.1 ▸ hpos, le_rfl⟩
    · obtain rfl := Option.some.inj hstep
      exact h.goto ⟨hfits.1, hfits.2.1⟩
  | ensureWrite queue request readIndex =>
    rw [hpc] at hfits
    obtain ⟨⟨hwrite, hunchanged, hcount, hone⟩, hpos, hread⟩ := hfits
    rw [Ring.produce, hpc] at hstep
    dsimp only at hstep
    split at hstep
    · obtain rfl := Option.some.inj hstep
      exact h.goto ⟨hwrite, hunchanged⟩
    · split at hstep
      · obtain rfl := Option.some.inj hstep
        refine h.goto (fits_begin hwrite hunchanged hcount fun _ => ?_)
        rw [hone]
        omega
      · obtain rfl := Option.some.inj hstep
        cases again with
        | true => exact h.goto ⟨hwrite, hunchanged, hcount, hone⟩
        | false => exact h.goto ⟨hwrite, hunchanged⟩
  | loadRead queue request =>
    rw [hpc] at hfits
    rw [Ring.produce, hpc] at hstep
    obtain rfl := Option.some.inj hstep
    exact h.goto ⟨hfits, le_rfl⟩
  | loadWrite queue request readIndex =>
    rw [hpc] at hfits
    obtain ⟨⟨hwrite, hunchanged, haccepted⟩, hread⟩ := hfits
    rw [Ring.produce, hpc] at hstep
    dsimp only at hstep
    split at hstep
    · obtain rfl := Option.some.inj hstep
      exact h.goto ⟨hwrite, hunchanged⟩
    · rename_i hfull
      obtain rfl := Option.some.inj hstep
      refine h.goto ⟨⟨hwrite, hunchanged, haccepted⟩, ?_⟩
      have hroom := room_of_not_full haccepted (Bool.eq_false_iff.mpr hfull)
      omega
  | reserve queue request =>
    rw [hpc] at hfits
    obtain ⟨⟨hwrite, hunchanged, haccepted⟩, hroom⟩ := hfits
    rw [Ring.produce, hpc] at hstep
    dsimp only at hstep
    split at hstep
    · cases hstep
    · rename_i packet rest hpackets
      split at hstep
      · obtain rfl := Option.some.inj hstep
        refine ⟨h.readIndex_le, h.holds, hwrite, [], hunchanged.writeIndex, hpackets,
          ⟨s.log, (List.append_nil _).symm, hwrite.symm⟩, rfl, hroom, haccepted.count_le,
          haccepted.power, hunchanged.doorbells⟩
      · obtain rfl := Option.some.inj hstep
        exact h.goto ⟨hwrite, hunchanged⟩
  | invalidate request first packetId packet rest =>
    rw [hpc] at hfits
    obtain ⟨rfl, published, hwriting⟩ := hfits
    rw [Ring.produce, hpc] at hstep
    obtain rfl := Option.some.inj hstep
    exact h.write hwriting _ ⟨rfl, published, hwriting.begins, hwriting.packets, hwriting.log,
      hwriting.writeIndex, hwriting.room, hwriting.count_le, hwriting.power, hwriting.doorbells⟩
  | copy request first packetId packet rest =>
    rw [hpc] at hfits
    obtain ⟨rfl, published, hwriting⟩ := hfits
    rw [Ring.produce, hpc] at hstep
    obtain rfl := Option.some.inj hstep
    refine h.write hwriting _ ⟨⟨rfl, published, hwriting.begins, hwriting.packets, hwriting.log,
      hwriting.writeIndex, hwriting.room, hwriting.count_le, hwriting.power, hwriting.doorbells⟩, ?_⟩
    exact congrArg Slot.body (s.write_slots_self s.log.length fun slot =>
      { slot with body := some packet })
  | ringDoorbell request first =>
    rw [hpc] at hfits
    obtain ⟨hpos, hwriting⟩ := hfits
    rw [Ring.produce, hpc] at hstep
    obtain rfl := Option.some.inj hstep
    obtain ⟨before, hlog, hlength⟩ := hwriting.log
    have hend : s.log.length = first + request.count := by
      rw [hlog, List.length_append, hlength]
      rfl
    refine ⟨h.readIndex_le, h.holds, hpos, before, hlog, hlength.trans hwriting.begins,
      hwriting.writeIndex.trans hend.symm, hwriting.count_le, hwriting.power, ?_, ?_⟩
    · change first + request.count - 1 + 1 = s.log.length
      omega
    · change s.memory.doorbells ++ _ = _
      rw [hwriting.doorbells]
  | returned request error packetId =>
    rw [hpc] at hfits
    rw [Ring.produce, hpc] at hstep
    obtain rfl := Option.some.inj hstep
    cases error with
    | none =>
      obtain ⟨-, before, -, -, hwrite, -⟩ := hfits
      exact h.goto hwrite
    | invalidPacket | invalidQueue | queueFull | reserveFailed => exact h.goto hfits.1
  | abandoned =>
    rw [hpc] at hfits
    rw [Ring.produce, hpc] at hstep
    obtain rfl := Option.some.inj hstep
    exact h.goto hfits.1

/-! ## Runs -/

theorem inv_init (packetCount : ℕ) : Inv (init packetCount : Sys Sig) := by
  refine ⟨le_rfl, ?_, rfl⟩
  intro id x _ hx
  cases hx

/-- The first access of a submission. -/
theorem fits_enter (hwrite : s.memory.writeIndex = s.log.length) (hunchanged : Unchanged s)
    (hcount : queue.packetCount = s.packetCount) : Fits s (request.enter queue) := by
  cases request with
  | kernelDispatch parameters ordering prevalidated =>
    cases prevalidated with
    | true => exact ⟨hwrite, hunchanged, hcount, rfl⟩
    | false => exact fits_begin hwrite hunchanged hcount nofun
  | barriersAnd | barriersAndKernelDispatch => exact fits_begin hwrite hunchanged hcount nofun

/-- Every step keeps the invariant. -/
theorem Inv.step (h : Inv s) {label : Label Sig} (hstep : Ring.step label s = some t) : Inv t := by
  cases label with
  | consume readIndex =>
    obtain ⟨⟨hle, hlength⟩, rfl⟩ := Run.of_guard hstep
    exact ⟨hlength, h.holds.mono hle, h.fits.frame rfl rfl rfl rfl rfl rfl hle⟩
  | submit queue request =>
    have hfits := h.fits
    cases hpc : s.pc with
    | idle =>
      rw [hpc] at hfits
      rw [Ring.step, hpc] at hstep
      obtain ⟨hcount, rfl⟩ := Run.of_guard hstep
      have hbegun : Fits { s with start := s.memory } (request.enter queue) :=
        fits_enter hfits ⟨rfl, rfl, rfl⟩ hcount
      exact ⟨h.readIndex_le, h.holds, hbegun.frame rfl rfl rfl rfl rfl rfl le_rfl⟩
    | _ => rw [Ring.step, hpc] at hstep; cases hstep
  | produce again => exact h.produce hstep

/-- Every run keeps the invariant. -/
theorem inv_of_steps {labels : List (Label Sig)}
    (hrun : Run.Steps Ring.step (fun _ _ => True) (init packetCount) labels s) : Inv s :=
  hrun.invariant (fun _ _ _ h _ hstep => h.step hstep) (inv_init packetCount)

/-- A dispatch is the last packet of its submission: its barriers come before it. -/
theorem eq_last_of_kernelDispatch {i : ℕ} {packet : AqlKernelDispatchPacket Sig}
    (h : request.packets[i]? = some (.kernelDispatch packet)) : i + 1 = request.count := by
  have hlt := (List.getElem?_eq_some_iff.mp h).1
  cases request with
  | kernelDispatch => exact Nat.le_antisymm hlt (Nat.le_add_left 1 i)
  | barriersAnd barriers =>
    rw [Request.packets, List.getElem?_map] at h
    obtain ⟨_, -, hbarrier⟩ := Option.map_eq_some_iff.mp h
    cases hbarrier
  | barriersAndKernelDispatch barriers =>
    rw [Request.count, Request.packets, List.length_append, List.length_singleton]
    rw [Request.packets] at h hlt
    rcases lt_or_ge i barriers.length with hi | hi
    · rw [List.getElem?_append_left (by rwa [List.length_map]), List.getElem?_map] at h
      obtain ⟨_, -, hbarrier⟩ := Option.map_eq_some_iff.mp h
      cases hbarrier
    · rw [List.length_append, List.length_map, List.length_singleton] at hlt
      rw [List.length_map]
      omega

/-- A submission that has returned `packetId` has published its packets in order, from the write
index it found on and a dispatch after its barriers, and has rung the doorbell once, after the
last of them. -/
structure Published (s : Sys Sig) (request : Request Sig) (packetId : ℕ) : Prop where
  writeIndex : s.memory.writeIndex = s.start.writeIndex + request.count
  last : packetId + 1 = s.start.writeIndex + request.count
  packets : ∀ i < request.count, s.log[s.start.writeIndex + i]? = request.packets[i]?
  dispatch : ∀ i < request.count, ∀ packet,
    s.log[s.start.writeIndex + i]? = some (.kernelDispatch packet) → i + 1 = request.count
  slots : ∀ j < request.count, ∀ i < j, slot s.packetCount (s.start.writeIndex + i) ≠
    slot s.packetCount (s.start.writeIndex + j)
  doorbells : s.memory.doorbells = s.start.doorbells ++ [⟨packetId, packetId + 1⟩]

/-- A submission that has returned without an error. -/
theorem Inv.published (h : Inv s) {packetId : ℕ} (hpc : s.pc = .returned request .none packetId) :
    Published s request packetId := by
  have hfits := h.fits
  rw [hpc] at hfits
  obtain ⟨-, before, hlog, hlength, hwrite, hle, hpower, hlast, hdoorbells⟩ := hfits
  have hend : s.log.length = s.start.writeIndex + request.count := by
    rw [hlog, List.length_append, hlength]
    rfl
  have hpackets (i : ℕ) : s.log[s.start.writeIndex + i]? = request.packets[i]? := by
    rw [hlog, ← hlength, List.getElem?_append_right (Nat.le_add_right _ _), Nat.add_sub_cancel_left]
  constructor
  · exact hwrite.trans hend
  · exact hlast.trans hend
  · exact fun i _ => hpackets i
  · exact fun i _ packet hpacket => eq_last_of_kernelDispatch ((hpackets i).symm.trans hpacket)
  · intro j hj i hi
    apply slot_ne hpower <;> omega
  · rw [hdoorbells, hlast]

/-- A submission that has returned with an error. -/
theorem Inv.unchanged (h : Inv s) {error : AqlSubmitError} {packetId : ℕ}
    (hpc : s.pc = .returned request error packetId) (herror : error ≠ .none) : Unchanged s := by
  have hfits := h.fits
  rw [hpc] at hfits
  cases error with
  | none => exact absurd rfl herror
  | invalidPacket | invalidQueue | queueFull | reserveFailed => exact hfits.2

/-- Whatever is submitted and however the consumer moves: a packet that has been published and
not consumed is in its slot; a submission that succeeds has published its packets under
consecutive ids in different slots before it rang the doorbell with the last id; and one that
fails, or whose caller has found no free slot, has changed nothing. -/
theorem submissions_keep_ring {labels : List (Label Sig)}
    (hrun : Run.Steps Ring.step (fun _ _ => True) (init packetCount) labels s) :
    (∀ id packet, s.memory.readIndex ≤ id → s.log[id]? = some packet →
      s.memory.slots (slot s.packetCount id) = packet.slot) ∧
    (∀ request packetId, s.pc = .returned request .none packetId →
      Published s request packetId) ∧
    (∀ request error packetId, s.pc = .returned request error packetId → error ≠ .none →
      Unchanged s) ∧
    (s.pc = .abandoned → Unchanged s) := by
  have h := inv_of_steps hrun
  refine ⟨?_, fun _ _ => h.published, fun _ _ _ => h.unchanged, ?_⟩
  · intro id packet hid hpacket
    apply h.holds id packet.slot hid
    rw [List.getElem?_map, hpacket]
    rfl
  · intro hpc
    have hfits := h.fits
    rw [hpc] at hfits
    exact hfits.2

/-- A ring of four slots. -/
def fourSlots : AqlQueueProducerOps Unit where
  ring := some 0
  packetCount := 4
  reservable := true
  validatePacket := fun _ => true

/-- A barrier and a dispatch of one work-item. -/
def barrierAndDispatch : Request Unit :=
  .barriersAndKernelDispatch [⟨[], by decide, none⟩]
    { gridSizeX := 1, gridSizeY := 1, gridSizeZ := 1
      workgroupSizeX := 1, workgroupSizeY := 1, workgroupSizeZ := 1
      privateSegmentSize := 0, groupSegmentSize := 0, kernelObject := 1
      kernargAddress := 0, completionSignal := none }
    { pendingDispatchCount := 0, hasPendingDependencies := false }

/-- The two packets are published, and the consumer takes the first of them. -/
def publishAndConsume : List (Label Unit) :=
  .submit fourSlots barrierAndDispatch :: List.replicate 10 (.produce true) ++ [.consume 1]

theorem submissions_keep_ring_batch : ∃ s : Sys Unit,
    Run.Steps Ring.step (fun _ _ => True) (init 4) publishAndConsume s ∧
    s.pc = .returned barrierAndDispatch .none 1 ∧ Published s barrierAndDispatch 1 ∧
    ∀ id packet, 1 ≤ id → s.log[id]? = some packet →
      s.memory.slots (slot s.packetCount id) = packet.slot := by
  obtain ⟨s, hrun, hpc, hread⟩ : ∃ s : Sys Unit,
      Run.Steps Ring.step (fun _ _ => True) (init 4) publishAndConsume s ∧
      s.pc = .returned barrierAndDispatch .none 1 ∧ s.memory.readIndex = 1 :=
    ⟨_, Run.Steps.of_exec rfl, rfl, rfl⟩
  obtain ⟨hholds, hpublished, -⟩ := submissions_keep_ring hrun
  rw [hread] at hholds
  exact ⟨s, hrun, hpc, hpublished _ _ hpc, hholds⟩

end LightRocm.Aql.Ring
