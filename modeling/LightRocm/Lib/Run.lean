import Mathlib.Tactic

/-!
# Runs of a labelled machine

A machine is a partial step function on states. A run takes the steps of a list
of labels, and each step may be required to meet a condition on the state it is
taken from. What the threads of a machine hold together is a sum over the list of
threads, of which a step changes one entry.
-/

namespace Run

variable {State Label : Type}

/-- The state after the steps of a list of labels, if every step can be taken. -/
def exec (step : Label → State → Option State) : List Label → State → Option State
  | [], s => some s
  | label :: labels, s => (step label s).bind (exec step labels)

/-- `Steps step ok s labels t` holds when the labels lead from `s` to `t` and
every step meets the condition `ok` on the state before it. -/
inductive Steps (step : Label → State → Option State) (ok : State → Label → Prop) :
    State → List Label → State → Prop
  | nil (s : State) : Steps step ok s [] s
  | cons {s t u : State} {label : Label} {labels : List Label} (hok : ok s label)
      (hstep : step label s = some t) (hrest : Steps step ok t labels u) :
      Steps step ok s (label :: labels) u

variable {step : Label → State → Option State} {ok : State → Label → Prop} {labels : List Label}
  {s t : State}

/-- What every step preserves holds at the end of every run. -/
theorem Steps.invariant {Inv : State → Prop}
    (hstep : ∀ s label t, Inv s → ok s label → step label s = some t → Inv t)
    (hrun : Steps step ok s labels t) (hinit : Inv s) :
    Inv t := by
  induction hrun with
  | nil => exact hinit
  | cons hok hs _ ih => exact ih (hstep _ _ _ hinit hok hs)

/-- A computed run meets every condition that its labels meet in all states. -/
theorem Steps.of_exec_of_forall (h : exec step labels s = some t)
    (hok : ∀ label ∈ labels, ∀ s, ok s label) :
    Steps step ok s labels t := by
  induction labels generalizing s with
  | nil =>
    obtain rfl : s = t := by simpa [exec] using h
    exact .nil s
  | cons label labels ih =>
    obtain ⟨u, hu, hrest⟩ := Option.bind_eq_some_iff.mp h
    exact .cons (hok label List.mem_cons_self s) hu
      (ih hrest fun label' hmem => hok label' (List.mem_cons_of_mem _ hmem))

/-- A computed run is a run without a condition. -/
theorem Steps.of_exec (h : exec step labels s = some t) :
    Steps step (fun _ _ => True) s labels t :=
  .of_exec_of_forall h fun _ _ _ => trivial

/-- The machine that takes a step only if a check allows it. -/
def checked (check : State → Label → Bool) (step : Label → State → Option State) :
    Label → State → Option State :=
  fun label s => if check s label then step label s else none

/-- A computed run meets every condition that has been checked along it. -/
theorem Steps.of_exec_checked {check : State → Label → Bool}
    (hcheck : ∀ s label, check s label = true → ok s label)
    (h : exec (checked check step) labels s = some t) : Steps step ok s labels t := by
  have hrun := Steps.of_exec h
  clear h
  induction hrun with
  | nil s => exact .nil s
  | cons _ hchecked _ ih =>
    obtain ⟨hok, hstep⟩ := Option.ite_none_right_eq_some.mp hchecked
    exact .cons (hcheck _ _ hok) hstep ih

/-- A run that can be computed leads to a state that can be checked. -/
theorem exists_of_exec {P : State → Prop} [DecidablePred P] {s : State}
    (h : (exec step labels s).any (fun t => decide (P t)) = true) :
    ∃ t, exec step labels s = some t ∧ P t := by
  cases hexec : exec step labels s with
  | none =>
    rw [hexec] at h
    cases h
  | some t =>
    rw [hexec] at h
    exact ⟨t, rfl, of_decide_eq_true h⟩

/-- A guarded step that has been taken met its guard. -/
theorem of_guard {α : Type} {guard : Prop} [Decidable guard] {next result : α}
    (h : (if guard then some next else none) = some result) : guard ∧ next = result := by
  obtain ⟨hguard, hnext⟩ := Option.ite_none_right_eq_some.mp h
  exact ⟨hguard, Option.some.inj hnext⟩

/-- The sum over a list after one entry has changed. -/
theorem sum_map_set {α : Type} (f : α → ℕ) {l : List α} {i : ℕ} {a : α} (h : l[i]? = some a)
    (b : α) : ((l.set i b).map f).sum + f a = (l.map f).sum + f b := by
  induction l generalizing i with
  | nil => cases h
  | cons x rest ih =>
    cases i with
    | zero =>
      obtain rfl := Option.some.inj h
      simp only [List.set_cons_zero, List.map_cons, List.sum_cons]
      omega
    | succ i =>
      have hrest := ih (by simpa using h)
      simp only [List.set_cons_succ, List.map_cons, List.sum_cons]
      omega

/-- An entry is at most the sum. -/
theorem le_sum_map {α : Type} (f : α → ℕ) {l : List α} {i : ℕ} {a : α} (h : l[i]? = some a) :
    f a ≤ (l.map f).sum :=
  List.single_le_sum (fun _ _ => Nat.zero_le _) _ (List.mem_map_of_mem (List.mem_of_getElem? h))

end Run
