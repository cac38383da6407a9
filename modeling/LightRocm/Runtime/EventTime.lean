import LightRocm.Status
import Mathlib.Data.UInt

/-!
# Times between events

`lr_event_elapsed_time_ns` and `lr_event_duration_ns` of the direct KFD backend.
Ticks of the device are converted with two readings of both clocks: first to
ticks of the system clock, then to nanoseconds, and both divisions round down.
-/

namespace LightRocm.EventTime

/-- `ClockCounters`. -/
structure ClockCounters where
  gpu : UInt64 := 0
  system : UInt64 := 0
  systemFrequencyHz : UInt64 := 0

/-- The part of `lr_event_t` that has to do with times. -/
structure Event where
  /-- The event is in `g_events`. -/
  registered : Bool
  deviceIndex : ℕ
  pending : Bool
  completed : Bool
  startTick : UInt64
  completionTick : UInt64
  recordClock : ClockCounters
  completionClock : ClockCounters

/-- `finish_direct_kfd_event_wait_locked` once the signal is zero, with the clock if it could be
read, the two timestamps of the signal, and whether the staging memory could be released. -/
def Event.finish (clock : Option ClockCounters) (startTick endTick : UInt64) (released : Bool)
    (event : Event) : Event :=
  let done := { event with pending := false, completed := released }
  match clock with
  | some clock =>
    if startTick ≠ 0 ∧ startTick ≤ endTick then
      { done with startTick, completionTick := endTick, completionClock := clock }
    else { done with startTick := 0, completionTick := 0, completionClock := {} }
  | none => { done with startTick := 0, completionTick := 0, completionClock := {} }

/-- `valid_clock_span`. -/
def validClockSpan (first last : ClockCounters) : Bool :=
  first.systemFrequencyHz ≠ 0 && first.systemFrequencyHz = last.systemFrequencyHz &&
    first.gpu < last.gpu && first.system ≤ last.system

/-- `gpu_ticks_to_ns`; the intermediate values have 128 bits. -/
def gpuTicksToNs (ticks : UInt64) (first last : ClockCounters) : UInt64 :=
  let gpuSpan := last.gpu - first.gpu
  let systemSpan := last.system - first.system
  let systemTicks := ticks.toNat * systemSpan.toNat % 2 ^ 128 / gpuSpan.toNat
  UInt64.ofNat (systemTicks * 1000000000 % 2 ^ 128 / first.systemFrequencyHz.toNat)

/-- `lr_event_elapsed_time_ns`. -/
def lrEventElapsedTimeNs (start stop : Event) : Except Status UInt64 :=
  if !start.registered || !stop.registered || start.deviceIndex ≠ stop.deviceIndex ||
      start.pending || stop.pending || !start.completed || !stop.completed ||
      stop.completionTick < start.completionTick then .error .invalidArgument
  else if !validClockSpan start.recordClock stop.completionClock then .error .runtime
  else .ok (gpuTicksToNs (stop.completionTick - start.completionTick) start.recordClock
    stop.completionClock)

/-- `lr_event_duration_ns`; `devices` is the number of devices. -/
def lrEventDurationNs (devices : ℕ) (event : Event) : Except Status UInt64 :=
  if !event.registered || devices ≤ event.deviceIndex || event.pending || !event.completed ||
      event.completionTick < event.startTick then .error .invalidArgument
  else if !validClockSpan event.recordClock event.completionClock then .error .runtime
  else .ok (gpuTicksToNs (event.completionTick - event.startTick) event.recordClock
    event.completionClock)

/-- One of the two calls has converted a difference of ticks with two clock records. -/
inductive Returns : UInt64 → ClockCounters → ClockCounters → UInt64 → Prop
  | elapsed {start stop : Event} {ns : UInt64} (h : lrEventElapsedTimeNs start stop = .ok ns) :
    Returns (stop.completionTick - start.completionTick) start.recordClock stop.completionClock ns
  | duration {devices : ℕ} {event : Event} {ns : UInt64}
    (h : lrEventDurationNs devices event = .ok ns) :
    Returns (event.completionTick - event.startTick) event.recordClock event.completionClock ns

/-- Ticks of the device between two clock records. -/
def gpuSpan (first last : ClockCounters) : ℕ := last.gpu.toNat - first.gpu.toNat

/-- Ticks of the system clock between two clock records. -/
def systemSpan (first last : ClockCounters) : ℕ := last.system.toNat - first.system.toNat

/-- The ticks of the device in ticks of the system clock, before the division by the span. -/
def product (ticks : UInt64) (first last : ClockCounters) : ℕ :=
  ticks.toNat * systemSpan first last

/-- The time in nanoseconds, rounded down once. -/
def exactNs (ticks : UInt64) (first last : ClockCounters) : ℕ :=
  product ticks first last * 1000000000 /
    (gpuSpan first last * first.systemFrequencyHz.toNat)

variable {ticks : UInt64} {first last : ClockCounters} {ns : UInt64}

/-- What a returned time has been computed from. -/
structure Spans (first last : ClockCounters) : Prop where
  frequency_pos : 0 < first.systemFrequencyHz.toNat
  gpu_pos : 0 < gpuSpan first last
  gpu : (last.gpu - first.gpu).toNat = gpuSpan first last
  system : (last.system - first.system).toNat = systemSpan first last

/-- The spans of two clock records that have been checked do not wrap around. -/
theorem spans_of_valid (h : validClockSpan first last = true) : Spans first last := by
  simp only [validClockSpan, ne_eq, Bool.and_eq_true, decide_eq_true_eq] at h
  obtain ⟨⟨⟨hfrequency, -⟩, hgpu⟩, hsystem⟩ := h
  have hlt := UInt64.lt_iff_toNat_lt.mp hgpu
  constructor
  · apply Nat.pos_of_ne_zero
    intro hzero
    exact hfrequency (UInt64.toNat_inj.mp hzero)
  · unfold gpuSpan
    omega
  · exact UInt64.toNat_sub_of_le _ _ (UInt64.le_of_lt hgpu)
  · exact UInt64.toNat_sub_of_le _ _ hsystem

/-- Both calls convert the ticks after they have checked the clock records. -/
theorem Returns.spec (h : Returns ticks first last ns) :
    Spans first last ∧ ns = gpuTicksToNs ticks first last := by
  cases h with
  | elapsed h =>
    unfold lrEventElapsedTimeNs at h
    split_ifs at h with _ hclock
    rw [Bool.not_eq_true', Bool.not_eq_false] at hclock
    exact ⟨spans_of_valid hclock, (Except.ok.inj h).symm⟩
  | duration h =>
    unfold lrEventDurationNs at h
    split_ifs at h with _ hclock
    rw [Bool.not_eq_true', Bool.not_eq_false] at hclock
    exact ⟨spans_of_valid hclock, (Except.ok.inj h).symm⟩

/-- What the first division drops, in nanoseconds, does not reach the next whole nanosecond. -/
def NoCarry (ticks : UInt64) (first last : ClockCounters) : Prop :=
  product ticks first last % gpuSpan first last * 1000000000 +
      product ticks first last / gpuSpan first last * 1000000000 %
        first.systemFrequencyHz.toNat * gpuSpan first last <
    gpuSpan first last * first.systemFrequencyHz.toNat

/-- None of the values of the conversion wraps around. -/
structure Unwrapped (ticks : UInt64) (first last : ClockCounters) : Prop where
  product : product ticks first last < 2 ^ 128
  scaled : EventTime.product ticks first last / gpuSpan first last * 1000000000 < 2 ^ 128
  result : EventTime.product ticks first last / gpuSpan first last * 1000000000 /
    first.systemFrequencyHz.toNat < 2 ^ 64

/-- A product of two words has 128 bits. -/
theorem product_lt (ticks : UInt64) (first last : ClockCounters) :
    product ticks first last < 2 ^ 128 := by
  have hspan : systemSpan first last < 2 ^ 64 :=
    lt_of_le_of_lt (Nat.sub_le _ _) last.system.toNat_lt
  calc ticks.toNat * systemSpan first last
      < 2 ^ 64 * 2 ^ 64 := Nat.mul_lt_mul'' ticks.toNat_lt hspan
    _ = 2 ^ 128 := by norm_num

/-- One division by the product against two divisions, and what they drop. -/
theorem one_division {p g f c : ℕ} (hg : 0 < g) (hf : 0 < f) :
    p * c / (g * f) = p / g * c / f + (p % g * c + p / g * c % f * g) / (g * f) := by
  have hp : p = g * (p / g) + p % g := (Nat.div_add_mod p g).symm
  have hq : p / g * c = f * (p / g * c / f) + p / g * c % f := (Nat.div_add_mod _ f).symm
  have hsum : p * c = g * f * (p / g * c / f) + (p % g * c + p / g * c % f * g) := by
    calc p * c = g * (p / g * c) + p % g * c := by
          nth_rewrite 1 [hp]
          ring
      _ = g * (f * (p / g * c / f) + p / g * c % f) + p % g * c := by rw [← hq]
      _ = _ := by ring
  rw [hsum, Nat.mul_add_div (Nat.mul_pos hg hf)]

/-- A time of 64 bits is computed without wrapping around. -/
theorem unwrapped_of_lt (hspans : Spans first last) (hshort : exactNs ticks first last < 2 ^ 64) :
    Unwrapped ticks first last := by
  have hresult : product ticks first last / gpuSpan first last * 1000000000 /
      first.systemFrequencyHz.toNat < 2 ^ 64 := by
    rw [exactNs, one_division hspans.gpu_pos hspans.frequency_pos] at hshort
    exact (Nat.le_add_right _ _).trans_lt hshort
  refine ⟨product_lt ticks first last, ?_, hresult⟩
  have hfrequency := first.systemFrequencyHz.toNat_lt
  rw [Nat.div_lt_iff_lt_mul hspans.frequency_pos] at hresult
  omega

/-- A conversion that does not wrap around. -/
theorem toNat_gpuTicksToNs (hspans : Spans first last) (h : Unwrapped ticks first last) :
    (gpuTicksToNs ticks first last).toNat =
      product ticks first last / gpuSpan first last * 1000000000 /
        first.systemFrequencyHz.toNat := by
  have hproduct : ticks.toNat * systemSpan first last % 2 ^ 128 = product ticks first last :=
    Nat.mod_eq_of_lt h.product
  simp only [gpuTicksToNs, hspans.gpu, hspans.system, hproduct, Nat.mod_eq_of_lt h.scaled]
  exact UInt64.toNat_ofNat_of_lt' h.result

/-- A conversion that does not wrap around is exact where the first division drops too little. -/
theorem exact_iff_noCarry (hspans : Spans first last) (h : Unwrapped ticks first last) :
    (gpuTicksToNs ticks first last).toNat = exactNs ticks first last ↔
      NoCarry ticks first last := by
  have hpos := Nat.mul_pos hspans.gpu_pos hspans.frequency_pos
  rw [toNat_gpuTicksToNs hspans h, exactNs, one_division hspans.gpu_pos hspans.frequency_pos,
    left_eq_add, Nat.div_eq_zero_iff_lt hpos]
  rfl

/-- Fewer ticks never give more time. -/
theorem le_of_unwrapped (hspans : Spans first last) (h : Unwrapped ticks first last)
    {fewer : UInt64} (hle : fewer ≤ ticks) :
    gpuTicksToNs fewer first last ≤ gpuTicksToNs ticks first last := by
  have hproduct : product fewer first last ≤ product ticks first last :=
    Nat.mul_le_mul_right _ (UInt64.le_iff_toNat_le.mp hle)
  have hscaled := Nat.mul_le_mul_right 1000000000
    (Nat.div_le_div_right (c := gpuSpan first last) hproduct)
  have hresult := Nat.div_le_div_right (c := first.systemFrequencyHz.toNat) hscaled
  have hfewer : Unwrapped fewer first last :=
    ⟨product_lt _ _ _, hscaled.trans_lt h.scaled, hresult.trans_lt h.result⟩
  rw [UInt64.le_iff_toNat_le, toNat_gpuTicksToNs hspans h, toNat_gpuTicksToNs hspans hfewer]
  exact hresult

/-- The time either call returns is the exact one rounded down, with nothing that wraps around on
the way and no more time for fewer ticks, exactly if the exact time is a number of 64 bits and the
first division drops less than what is missing to the next nanosecond. -/
theorem returned_time_exact (h : Returns ticks first last ns) :
    (ns.toNat = exactNs ticks first last ∧ Unwrapped ticks first last ∧
      ∀ fewer ns', Returns fewer first last ns' → fewer ≤ ticks → ns' ≤ ns) ↔
    exactNs ticks first last < 2 ^ 64 ∧ NoCarry ticks first last := by
  obtain ⟨hspans, rfl⟩ := h.spec
  constructor
  · rintro ⟨hexact, hunwrapped, -⟩
    exact ⟨hexact.symm.trans_lt (UInt64.toNat_lt _),
      (exact_iff_noCarry hspans hunwrapped).mp hexact⟩
  · rintro ⟨hshort, hcarry⟩
    have hunwrapped := unwrapped_of_lt hspans hshort
    refine ⟨(exact_iff_noCarry hspans hunwrapped).mpr hcarry, hunwrapped, ?_⟩
    intro fewer ns' hreturns hle
    obtain ⟨-, rfl⟩ := hreturns.spec
    exact le_of_unwrapped hspans hunwrapped hle

/-- An event of the first device, recorded when the clocks stood at `clock`. -/
def recordedAt (clock : ClockCounters) : Event where
  registered := true
  deviceIndex := 0
  pending := true
  completed := false
  startTick := 0
  completionTick := 0
  recordClock := clock
  completionClock := {}

/-- Work between ticks 5 and 30, while a clock of one gigahertz goes on by 10 ticks. -/
theorem returned_time_exact_gigahertz :
    ∃ ns, lrEventDurationNs 1 ((recordedAt ⟨0, 0, 1000000000⟩).finish
        (some ⟨100, 10, 1000000000⟩) 5 30 true) = .ok ns ∧
      ns.toNat = exactNs 25 ⟨0, 0, 1000000000⟩ ⟨100, 10, 1000000000⟩ :=
  ⟨_, rfl, ((returned_time_exact (@Returns.duration 1 ((recordedAt ⟨0, 0, 1000000000⟩).finish
    (some ⟨100, 10, 1000000000⟩) 5 30 true) _ rfl)).mpr ⟨by decide, by unfold NoCarry; decide⟩).1⟩

/-- One tick of a span of two that is one tick of a system clock of a hertz lasts half a second,
but the time returned is zero; and 2^63 ticks that are as many seconds are returned as zero too. -/
theorem returned_time_inexact :
    (lrEventDurationNs 1 ((recordedAt ⟨0, 0, 1⟩).finish (some ⟨2, 1, 1⟩) 1 2 true) = .ok 0 ∧
      exactNs 1 ⟨0, 0, 1⟩ ⟨2, 1, 1⟩ = 500000000) ∧
    (lrEventDurationNs 1 ((recordedAt ⟨0, 0, 1⟩).finish (some ⟨2 ^ 63 + 1, 2 ^ 63 + 1, 1⟩) 1
        (2 ^ 63 + 1) true) = .ok 0 ∧
      exactNs (2 ^ 63) ⟨0, 0, 1⟩ ⟨2 ^ 63 + 1, 2 ^ 63 + 1, 1⟩ = 2 ^ 63 * 1000000000) := by
  refine ⟨⟨?_, ?_⟩, ?_, ?_⟩ <;> decide +kernel

end LightRocm.EventTime
