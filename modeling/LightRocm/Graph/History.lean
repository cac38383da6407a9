import LightRocm.Graph.Device

/-!
# The history of a launch

The board shows the current phase, the trace all of them. `History` is the
invariant that they agree and that the events stand in order; each of the few
things a scheduler does to the history keeps it under a condition on the board.
-/

namespace LightRocm.Graph

section Trace

variable {trace before after : List Event} {e : Event} {w k t j i : ℕ}

/-- An event of a longer trace is one of the trace or the last one. -/
theorem split_snoc {x : Event} (h : trace ++ [e] = before ++ x :: after) :
    (∃ rest, trace = before ++ x :: rest) ∨ before = trace ∧ x = e := by
  rcases List.eq_nil_or_concat after with rfl | ⟨rest, y, rfl⟩
  · have heq : trace ++ [e] = before ++ [x] := h
    obtain ⟨hbefore, hx⟩ := List.append_inj' heq rfl
    exact .inr ⟨hbefore.symm, (List.cons.inj hx).1.symm⟩
  · have heq : trace ++ [e] = (before ++ x :: rest) ++ [y] := by simpa using h
    exact .inl ⟨rest, (List.append_inj' heq rfl).1⟩

@[simp] theorem starts_snoc : starts (trace ++ [e]) k t = starts trace k t ++ starts [e] k t :=
  List.filterMap_append

@[simp] theorem finishes_snoc :
    finishes (trace ++ [e]) k t = finishes trace k t ++ finishes [e] k t :=
  List.filterMap_append

@[simp] theorem advances_snoc : advances (trace ++ [e]) k = advances trace k ++ advances [e] k :=
  List.filterMap_append

theorem starts_started : starts [.started w j i] k t = if j = k ∧ i = t then [w] else [] := by
  by_cases h : j = k ∧ i = t <;> simp [starts, h]

theorem finishes_finished : finishes [.finished w j i] k t = if j = k ∧ i = t then [w] else [] := by
  by_cases h : j = k ∧ i = t <;> simp [finishes, h]

theorem advances_advanced : advances [.advanced w j] k = if j = k then [w] else [] := by
  by_cases h : j = k <;> simp [advances, h]

@[simp] theorem starts_finished : starts [.finished w j i] k t = [] := rfl
@[simp] theorem starts_advanced : starts [.advanced w j] k t = [] := rfl
@[simp] theorem starts_arrived : starts [.arrived w j i] k t = [] := rfl
@[simp] theorem starts_released : starts [.released w j i] k t = [] := rfl
@[simp] theorem starts_followed : starts [.followed w j] k t = [] := rfl
@[simp] theorem finishes_started : finishes [.started w j i] k t = [] := rfl
@[simp] theorem finishes_advanced : finishes [.advanced w j] k t = [] := rfl
@[simp] theorem finishes_arrived : finishes [.arrived w j i] k t = [] := rfl
@[simp] theorem finishes_released : finishes [.released w j i] k t = [] := rfl
@[simp] theorem finishes_followed : finishes [.followed w j] k t = [] := rfl
@[simp] theorem advances_started : advances [.started w j i] k = [] := rfl
@[simp] theorem advances_finished : advances [.finished w j i] k = [] := rfl
@[simp] theorem advances_arrived : advances [.arrived w j i] k = [] := rfl
@[simp] theorem advances_released : advances [.released w j i] k = [] := rfl
@[simp] theorem advances_followed : advances [.followed w j] k = [] := rfl

end Trace

variable {args : ResidentArgs} {d d' : Device} {w t : ℕ}

/-- The tasks of the current phase have all been executed. -/
def Device.Executed (args : ResidentArgs) (d : Device) : Prop :=
  ∀ t, t < (args.program d.program).taskCount → (d.board t).finisher ≠ []

/-- The board and the trace agree, and the events stand in order. -/
structure History (args : ResidentArgs) (d : Device) : Prop where
  order : PhaseOrder args d.entered d.trace
  /-- The board shows the current phase. -/
  current : ∀ t, starts d.trace d.left.length t = (d.board t).starter ∧
    finishes d.trace d.left.length t = (d.board t).finisher
  /-- The phases that have been left are over. -/
  past : ∀ k p, d.left[k]? = some p → (∀ t, t < (args.program p).taskCount →
    ∃ w, starts d.trace k t = [w] ∧ finishes d.trace k t = [w]) ∧ ∃ w, advances d.trace k = [w]
  /-- Nothing has happened of a phase that has not been entered. -/
  future : ∀ k, d.left.length < k →
    (∀ t, starts d.trace k t = [] ∧ finishes d.trace k t = []) ∧ advances d.trace k = []
  /-- The current phase goes on until the launch ends. -/
  going : ¬d.state.status.Ended → advances d.trace d.left.length = []
  /-- A launch ends after the tasks of its last phase. -/
  ends : d.state.status.Ended → d.Executed args ∧ ∃ w, advances d.trace d.left.length = [w]

/-- An event that says nothing about tasks or phases may happen at any time. -/
theorem PhaseOrder.snoc {entered : List ℕ} {trace : List Event} {e : Event}
    (h : PhaseOrder args entered trace)
    (hstarted : ∀ w k t, e = .started w k t → starts trace k t = [] ∧
      (∃ p, entered[k]? = some p ∧ t < (args.program p).taskCount ∧
        ∀ d, args.Depends (args.program p) t d → finishes trace k d ≠ []) ∧
      ∀ j p, j < k → entered[j]? = some p → ∀ t', t' < (args.program p).taskCount →
        finishes trace j t' ≠ [])
    (hfinished : ∀ w k t, e = .finished w k t → starts trace k t = [w] ∧ finishes trace k t = [])
    (hadvanced : ∀ w k, e = .advanced w k → advances trace k = [] ∧
      ∃ p, entered[k]? = some p ∧ ∀ t, t < (args.program p).taskCount →
        finishes trace k t ≠ []) :
    PhaseOrder args entered (trace ++ [e]) := by
  refine ⟨fun {before after w k t} hsplit => ?_, fun {before after w k t} hsplit => ?_,
    fun {before after w k} hsplit => ?_⟩
  · rcases split_snoc hsplit with ⟨rest, hold⟩ | ⟨rfl, heq⟩
    · exact h.started hold
    · exact hstarted w k t heq.symm
  · rcases split_snoc hsplit with ⟨rest, hold⟩ | ⟨rfl, heq⟩
    · exact h.finished hold
    · exact hfinished w k t heq.symm
  · rcases split_snoc hsplit with ⟨rest, hold⟩ | ⟨rfl, heq⟩
    · exact h.advanced hold
    · exact hadvanced w k heq.symm

/-- The program of the current phase is the last one entered. -/
theorem Device.entered_last (d : Device) : d.entered[d.left.length]? = some d.program := by
  simp [entered]

/-- The programs of earlier phases are those that have been left. -/
theorem Device.entered_left {k : ℕ} (hk : k < d.left.length) : d.entered[k]? = d.left[k]? := by
  rw [entered, List.getElem?_append_left hk]

/-- Every earlier phase has been executed. -/
theorem History.past_finished (h : History args d) {k p : ℕ} (hk : k < d.left.length)
    (hp : d.entered[k]? = some p) {t : ℕ} (ht : t < (args.program p).taskCount) :
    finishes d.trace k t ≠ [] := by
  rw [Device.entered_left hk] at hp
  obtain ⟨w, -, hfinish⟩ := (h.past k p hp).1 t ht
  rw [hfinish]
  exact List.cons_ne_nil _ _

/-- Changes that leave the history alone. -/
theorem History.congr (h : History args d) (htrace : d'.trace = d.trace) (hleft : d'.left = d.left)
    (hprogram : d'.program = d.program)
    (hended : d'.state.status.Ended ↔ d.state.status.Ended)
    (hboard : ∀ t, (d'.board t).starter = (d.board t).starter ∧
      (d'.board t).finisher = (d.board t).finisher) : History args d' where
  order := by
    rw [htrace, Device.entered, hleft, hprogram]
    exact h.order
  current t := by
    rw [htrace, hleft, (hboard t).1, (hboard t).2]
    exact h.current t
  past := by
    rw [htrace, hleft]
    exact h.past
  future := by
    rw [htrace, hleft]
    exact h.future
  going hnot := by
    rw [htrace, hleft]
    exact h.going (mt hended.mpr hnot)
  ends hend := by
    rw [htrace, hleft]
    obtain ⟨hexecuted, hadvanced⟩ := h.ends (hended.mp hend)
    refine ⟨fun t ht => ?_, hadvanced⟩
    rw [(hboard t).2]
    exact hexecuted t (by rwa [hprogram] at ht)

/-- An event that says nothing about tasks or the ends of phases. -/
theorem History.note (h : History args d) {e : Event} (htrace : d'.trace = d.trace ++ [e])
    (hleft : d'.left = d.left) (hprogram : d'.program = d.program)
    (hstatus : d'.state.status = d.state.status) (hboard : d'.board = d.board)
    (hstarted : ∀ w k t, e ≠ .started w k t) (hfinished : ∀ w k t, e ≠ .finished w k t)
    (hadvanced : ∀ w k, e ≠ .advanced w k) : History args d' := by
  have hstarts : ∀ k t, starts d'.trace k t = starts d.trace k t := by
    intro k t
    rw [htrace, starts_snoc]
    cases e with
    | started w k t => exact absurd rfl (hstarted w k t)
    | _ => exact List.append_nil _
  have hfinishes : ∀ k t, finishes d'.trace k t = finishes d.trace k t := by
    intro k t
    rw [htrace, finishes_snoc]
    cases e with
    | finished w k t => exact absurd rfl (hfinished w k t)
    | _ => exact List.append_nil _
  have hadvances : ∀ k, advances d'.trace k = advances d.trace k := by
    intro k
    rw [htrace, advances_snoc]
    cases e with
    | advanced w k => exact absurd rfl (hadvanced w k)
    | _ => exact List.append_nil _
  have hexecuted : d'.Executed args ↔ d.Executed args := by
    rw [Device.Executed, hprogram, hboard, Device.Executed]
  refine ⟨?_, ?_, ?_, ?_, ?_, ?_⟩
  · rw [htrace, Device.entered, hleft, hprogram]
    exact h.order.snoc (fun w k t heq => absurd heq (hstarted w k t))
      (fun w k t heq => absurd heq (hfinished w k t)) fun w k heq => absurd heq (hadvanced w k)
  · simp only [hstarts, hfinishes, hleft, hboard]
    exact h.current
  · simp only [hstarts, hfinishes, hadvances, hleft]
    exact h.past
  · simp only [hstarts, hfinishes, hadvances, hleft]
    exact h.future
  · simp only [hadvances, hleft, hstatus]
    exact h.going
  · simp only [hadvances, hleft, hstatus, hexecuted]
    exact h.ends

/-- A new mark for a task of the same worker leaves the history alone. -/
theorem History.remark (h : History args d) {mark : Mark}
    (hstarter : mark.starter = (d.board t).starter)
    (hfinisher : mark.finisher = (d.board t).finisher) (g : ℕ) (masks : MaskState) :
    History args ((d.setMasks g masks).remark t mark) := by
  refine h.congr rfl rfl rfl Iff.rfl fun i => ?_
  by_cases heq : i = t
  · simp [Device.remark, heq, hstarter, hfinisher]
  · simp [Device.remark, Device.setMasks, heq]

/-- A worker takes a task whose dependencies have been executed. -/
theorem History.take (h : History args d) (hstatus : ¬d.state.status.Ended)
    (ht : t < (args.program d.program).taskCount) (hboard : d.board t = .unclaimed)
    (hdepends : ∀ i, args.Depends (args.program d.program) t i → (d.board i).finisher ≠ []) :
    History args (d.take w t) where
  order := by
    refine h.order.snoc ?_ nofun nofun
    rintro w' k t' heq
    obtain ⟨-, rfl, rfl⟩ := Event.started.inj heq
    refine ⟨by rw [(h.current t).1, hboard]; rfl,
      ⟨d.program, d.entered_last, ht, fun i hi => ?_⟩, fun j p hj hp t' => h.past_finished hj hp⟩
    rw [(h.current i).2]
    exact hdepends i hi
  current i := by
    have hold := h.current i
    by_cases heq : t = i
    · subst heq
      simp_all [Device.take, starts_started, Mark.starter, Mark.finisher]
    · simp [Device.take, starts_started, heq, Ne.symm heq, hold]
  past k p hp := by
    have hk : k < d.left.length := (List.getElem?_eq_some_iff.mp hp).1
    simpa [Device.take, starts_started, hk.ne'] using h.past k p hp
  future k hk := by
    have hk' : d.left.length < k := hk
    simpa [Device.take, starts_started, hk'.ne] using h.future k hk'
  going hnot := by simpa [Device.take] using h.going hnot
  ends hend := absurd hend hstatus

/-- A worker has executed the task that it took. -/
theorem History.finish (h : History args d) (hstatus : ¬d.state.status.Ended)
    (hboard : d.board t = .executing w) : History args (d.finish w t) where
  order := by
    refine h.order.snoc nofun ?_ nofun
    rintro w' k t' heq
    obtain ⟨rfl, rfl, rfl⟩ := Event.finished.inj heq
    rw [(h.current t).1, (h.current t).2, hboard]
    exact ⟨rfl, rfl⟩
  current i := by
    have hold := h.current i
    by_cases heq : t = i
    · subst heq
      simp_all [Device.finish, finishes_finished, Mark.starter, Mark.finisher]
    · simp [Device.finish, finishes_finished, heq, Ne.symm heq, hold]
  past k p hp := by
    have hk : k < d.left.length := (List.getElem?_eq_some_iff.mp hp).1
    simpa [Device.finish, finishes_finished, hk.ne'] using h.past k p hp
  future k hk := by
    have hk' : d.left.length < k := hk
    simpa [Device.finish, finishes_finished, hk'.ne] using h.future k hk'
  going hnot := by simpa [Device.finish] using h.going hnot
  ends hend := absurd hend hstatus

/-- The current phase may be ended once its tasks have been executed. -/
theorem History.order_advanced (h : History args d) (hstatus : ¬d.state.status.Ended)
    (hexecuted : d.Executed args) :
    PhaseOrder args d.entered (d.trace ++ [.advanced w d.left.length]) := by
  refine h.order.snoc nofun nofun ?_
  rintro w' k heq
  obtain ⟨-, rfl⟩ := Event.advanced.inj heq
  refine ⟨h.going hstatus, d.program, d.entered_last, fun t ht => ?_⟩
  rw [(h.current t).2]
  exact hexecuted t ht

/-- A worker ends the last phase. -/
theorem History.stop (h : History args d) (hstatus : ¬d.state.status.Ended)
    (hexecuted : d.Executed args) (status : Status) (hended : status.Ended)
    (errorCode : ℕ) :
    History args (d.stop w status errorCode) where
  order := h.order_advanced hstatus hexecuted
  current t := by simpa [Device.stop] using h.current t
  past k p hp := by
    have hk : k < d.left.length := (List.getElem?_eq_some_iff.mp hp).1
    simpa [Device.stop, advances_advanced, hk.ne'] using h.past k p hp
  future k hk := by
    have hk' : d.left.length < k := hk
    simpa [Device.stop, advances_advanced, hk'.ne] using h.future k hk'
  going hnot := absurd hended hnot
  ends _ := ⟨hexecuted, w, by simp [Device.stop, advances_advanced, h.going hstatus]⟩

/-- What has been executed has been started, by the same worker. -/
theorem Mark.starter_eq {mark : Mark} (h : mark.finisher ≠ []) :
    ∃ w, mark.starter = [w] ∧ mark.finisher = [w] := by
  cases mark with
  | unclaimed | executing => exact absurd rfl h
  | executed w | completed w | counted w => exact ⟨w, rfl, rfl⟩

/-- A worker ends a phase and publishes the next one. -/
theorem History.enter (h : History args d) (hstatus : ¬d.state.status.Ended)
    (hexecuted : d.Executed args) (phase : ℕ) : History args (d.enter w phase) where
  order := by
    have horder := h.order_advanced (w := w) hstatus hexecuted
    -- The new program comes after those that the trace speaks of.
    have hgrow : ∀ {k p : ℕ}, d.entered[k]? = some p →
        (d.enter w phase).entered[k]? = some p := by
      intro k p hp
      have hlt : k < d.entered.length := (List.getElem?_eq_some_iff.mp hp).1
      change (d.entered ++ [_])[k]? = some p
      rwa [List.getElem?_append_left hlt]
    have hshrink : ∀ {j k p p' : ℕ}, j < k → d.entered[k]? = some p' →
        (d.enter w phase).entered[j]? = some p → d.entered[j]? = some p := by
      intro j k p p' hjk hk hp
      have hlt : k < d.entered.length := (List.getElem?_eq_some_iff.mp hk).1
      have hp' : (d.entered ++ [_])[j]? = some p := hp
      rwa [List.getElem?_append_left (hjk.trans hlt)] at hp'
    refine ⟨fun hsplit => ?_, fun hsplit => horder.finished hsplit, fun hsplit => ?_⟩
    · obtain ⟨hfresh, ⟨p, hp, hrest⟩, hearlier⟩ := horder.started hsplit
      exact ⟨hfresh, ⟨p, hgrow hp, hrest⟩,
        fun j p' hj hp' => hearlier j p' hj (hshrink hj hp hp')⟩
    · obtain ⟨hfresh, p, hp, hrest⟩ := horder.advanced hsplit
      exact ⟨hfresh, p, hgrow hp, hrest⟩
  current t := by
    have hfuture := (h.future (d.left.length + 1) (by omega)).1 t
    simpa [Device.enter, Mark.starter, Mark.finisher] using hfuture
  past k p hp := by
    have hp' : (d.left ++ [d.program])[k]? = some p := hp
    rcases lt_trichotomy k d.left.length with hk | rfl | hk
    · rw [List.getElem?_append_left hk] at hp'
      simpa [Device.enter, advances_advanced, hk.ne'] using h.past k p hp'
    · obtain rfl : d.program = p := by simpa using hp'
      refine ⟨fun t ht => ?_, w, by simp [Device.enter, advances_advanced, h.going hstatus]⟩
      obtain ⟨w', hstarter, hfinisher⟩ := Mark.starter_eq (hexecuted t ht)
      refine ⟨w', ?_⟩
      simp [Device.enter, (h.current t).1, (h.current t).2, hstarter, hfinisher]
    · rw [List.getElem?_eq_none (by simp; omega)] at hp'
      cases hp'
  future k hk := by
    have hk' : d.left.length + 1 < k := by simpa [Device.enter] using hk
    have hold := h.future k (by omega)
    simpa [Device.enter, advances_advanced, show ¬d.left.length = k by omega] using hold
  going _ := by
    have hold := (h.future (d.left.length + 1) (by omega)).2
    simpa [Device.enter, advances_advanced] using hold
  ends hend := absurd hend hstatus

/-- How the run goes on is published. -/
theorem History.settle (h : History args d) (hstatus : ¬d.state.status.Ended)
    (hexecuted : d.Executed args) (generation : ℕ) (verdict : Verdict) :
    History args (d.settle w generation verdict) := by
  cases verdict with
  | complete => exact h.stop hstatus hexecuted .complete ⟨nofun, nofun⟩ _
  | maxSteps => exact h.stop hstatus hexecuted .maxSteps ⟨nofun, nofun⟩ _
  | exhausted => exact h.stop hstatus hexecuted .invalidProgram ⟨nofun, nofun⟩ _
  | next programIndex => exact h.enter hstatus hexecuted _

/-- Before the launch. -/
theorem History.init (htrace : d.trace = []) (hleft : d.left = [])
    (hboard : ∀ t, d.board t = .unclaimed) (hstatus : ¬d.state.status.Ended) :
    History args d where
  order := by
    rw [htrace]
    exact ⟨fun h => by simp at h, fun h => by simp at h, fun h => by simp at h⟩
  current t := by
    rw [htrace, hboard]
    exact ⟨rfl, rfl⟩
  past k p hp := by simp [hleft] at hp
  future k _ := by
    rw [htrace]
    exact ⟨fun _ => ⟨rfl, rfl⟩, rfl⟩
  going _ := by rw [htrace]; rfl
  ends hend := absurd hend hstatus

/-- A history in which the board and the trace agree is one in which every task is
executed once. -/
theorem History.exactlyOnce (h : History args d) : ExactlyOnce args d where
  order := h.order
  once k p hover hp t ht := by
    rcases hover with hk | ⟨rfl, hended⟩
    · rw [Device.entered_left hk] at hp
      exact (h.past k p hp).1 t ht
    · obtain rfl : d.program = p := by simpa [Device.entered] using hp
      obtain ⟨w, hstarter, hfinisher⟩ := Mark.starter_eq ((h.ends hended).1 t ht)
      exact ⟨w, (h.current t).1.trans hstarter, (h.current t).2.trans hfinisher⟩
  ended k hover := by
    rcases hover with hk | ⟨rfl, hended⟩
    · exact (h.past k _ (List.getElem?_eq_getElem hk)).2
    · exact (h.ends hended).2
  still k hover := by
    rcases lt_trichotomy k d.left.length with hk | rfl | hk
    · exact absurd (.inl hk) hover
    · exact h.going fun hended => hover (.inr ⟨rfl, hended⟩)
    · exact (h.future k hk).2

end LightRocm.Graph
