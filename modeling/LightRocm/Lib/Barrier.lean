import Mathlib.Data.Finset.Card
import Mathlib.Tactic

/-!
# A counting barrier

A fixed number of workers meet at a barrier with one counter. Whoever arrives
counts one up; the last to arrive resets the counter, does what has to be done
while the others wait, and opens the barrier.

`Gathering` is the invariant of the counter and the roles of the workers. Each
rule says how one move changes the roles of all workers.
-/

namespace Barrier

/-- Where a worker stands with the barrier that is closed now. -/
inductive Role where
  /-- It has not arrived. -/
  | away
  /-- It has arrived and waits. -/
  | waiting
  /-- It was the last to arrive, and the counter is full. -/
  | resetting
  /-- It has reset the counter and will open the barrier. -/
  | leading
  deriving DecidableEq

/-- The workers that have arrived. -/
def arrived (workers : ℕ) (role : ℕ → Role) : Finset ℕ :=
  (Finset.range workers).filter fun w => role w ≠ .away

/-- The counter and the roles agree. -/
structure Gathering (workers : ℕ) (role : ℕ → Role) (count : ℕ) : Prop where
  /-- Until all have arrived, the counter counts them, and nobody leads. -/
  waits : (∀ w < workers, role w = .away ∨ role w = .waiting) →
    count = (arrived workers role).card ∧ count < workers
  /-- Everybody else waits for the last to arrive. -/
  resets : ∀ w < workers, role w = .resetting →
    count = workers ∧ ∀ w' < workers, w' ≠ w → role w' = .waiting
  leads : ∀ w < workers, role w = .leading →
    count = 0 ∧ ∀ w' < workers, w' ≠ w → role w' = .waiting

variable {workers count w : ℕ} {role role' : ℕ → Role}

/-- Before anybody has arrived. -/
theorem gathering_away (hpos : 0 < workers) (haway : ∀ w < workers, role w = .away) :
    Gathering workers role 0 where
  waits _ := by
    refine ⟨?_, hpos⟩
    rw [arrived, Finset.filter_eq_empty_iff.mpr, Finset.card_empty]
    intro w hw
    simp [haway w (Finset.mem_range.mp hw)]
  resets w hw hrole := by
    rw [haway w hw] at hrole
    cases hrole
  leads w hw hrole := by
    rw [haway w hw] at hrole
    cases hrole

/-- Only the roles of the workers count. -/
theorem Gathering.congr (h : Gathering workers role count)
    (hrole : ∀ w < workers, role' w = role w) : Gathering workers role' count where
  waits hidle := by
    have harrived : arrived workers role' = arrived workers role := by
      refine Finset.filter_congr fun w hw => ?_
      rw [hrole w (Finset.mem_range.mp hw)]
    rw [harrived]
    exact h.waits fun w hw => hrole w hw ▸ hidle w hw
  resets w hw hw' := by
    obtain ⟨hcount, hothers⟩ := h.resets w hw (hrole w hw ▸ hw')
    exact ⟨hcount, fun v hv hne => hrole v hv ▸ hothers v hv hne⟩
  leads w hw hw' := by
    obtain ⟨hcount, hothers⟩ := h.leads w hw (hrole w hw ▸ hw')
    exact ⟨hcount, fun v hv hne => hrole v hv ▸ hothers v hv hne⟩

/-- While a worker is away, nobody resets the counter or leads. -/
theorem Gathering.idle (h : Gathering workers role count) (hw : w < workers)
    (haway : role w = .away) : ∀ v < workers, role v = .away ∨ role v = .waiting := by
  intro v hv
  cases hrole : role v with
  | away => exact .inl rfl
  | waiting => exact .inr rfl
  | resetting =>
    by_cases heq : w = v
    · rw [heq, hrole] at haway
      cases haway
    · rw [(h.resets v hv hrole).2 w hw heq] at haway
      cases haway
  | leading =>
    by_cases heq : w = v
    · rw [heq, hrole] at haway
      cases haway
    · rw [(h.leads v hv hrole).2 w hw heq] at haway
      cases haway

/-- A worker that arrives is counted. -/
theorem card_arrived (hw : w < workers) (haway : role w = .away) (hnew : role' w ≠ .away)
    (hothers : ∀ v < workers, v ≠ w → role' v = role v) :
    (arrived workers role').card = (arrived workers role).card + 1 := by
  have hinsert : arrived workers role' = insert w (arrived workers role) := by
    ext v
    simp only [arrived, Finset.mem_filter, Finset.mem_range, Finset.mem_insert]
    by_cases heq : v = w
    · subst heq
      simp [hw, hnew]
    · constructor
      · rintro ⟨hv, hrole⟩
        exact .inr ⟨hv, hothers v hv heq ▸ hrole⟩
      · rintro (hv | ⟨hv, hrole⟩)
        · exact absurd hv heq
        · exact ⟨hv, (hothers v hv heq).symm ▸ hrole⟩
  rw [hinsert, Finset.card_insert_of_notMem]
  simp [arrived, haway]

/-- A worker arrives, and others are still away. -/
theorem Gathering.arrive (h : Gathering workers role count) (hw : w < workers)
    (haway : role w = .away) (hfew : count + 1 < workers) (hnew : role' w = .waiting)
    (hothers : ∀ v < workers, v ≠ w → role' v = role v) :
    Gathering workers role' (count + 1) := by
  have hidle := h.idle hw haway
  have hidle' : ∀ v < workers, role' v = .away ∨ role' v = .waiting := by
    intro v hv
    by_cases heq : v = w
    · exact .inr (heq ▸ hnew)
    · rw [hothers v hv heq]
      exact hidle v hv
  refine ⟨fun _ => ⟨?_, hfew⟩, fun v hv hrole => ?_, fun v hv hrole => ?_⟩
  · rw [card_arrived hw haway (by rw [hnew]; exact nofun) hothers, (h.waits hidle).1]
  · rcases hidle' v hv with hv' | hv' <;> rw [hv'] at hrole <;> cases hrole
  · rcases hidle' v hv with hv' | hv' <;> rw [hv'] at hrole <;> cases hrole

/-- The last worker arrives. -/
theorem Gathering.arriveLast (h : Gathering workers role count) (hw : w < workers)
    (haway : role w = .away) (hfull : count + 1 = workers) (hnew : role' w = .resetting)
    (hothers : ∀ v < workers, v ≠ w → role' v = role v) :
    Gathering workers role' (count + 1) := by
  have hidle := h.idle hw haway
  have hall : arrived workers role' = Finset.range workers := by
    refine Finset.eq_of_subset_of_card_le (Finset.filter_subset _ _) ?_
    rw [card_arrived hw haway (by rw [hnew]; exact nofun) hothers, ← (h.waits hidle).1,
      Finset.card_range, hfull]
  have hwait : ∀ v < workers, v ≠ w → role' v = .waiting := by
    intro v hv hne
    have hmem : v ∈ arrived workers role' := by rw [hall]; exact Finset.mem_range.mpr hv
    have hnot : role' v ≠ .away := (Finset.mem_filter.mp hmem).2
    rw [hothers v hv hne] at hnot ⊢
    exact (hidle v hv).resolve_left hnot
  refine ⟨fun hidle' => ?_, fun v hv hrole => ?_, fun v hv hrole => ?_⟩
  · rcases hidle' w hw with hw' | hw' <;> rw [hnew] at hw' <;> cases hw'
  · by_cases heq : v = w
    · subst heq
      exact ⟨hfull, hwait⟩
    · rw [hwait v hv heq] at hrole
      cases hrole
  · by_cases heq : v = w
    · rw [heq, hnew] at hrole
      cases hrole
    · rw [hwait v hv heq] at hrole
      cases hrole

/-- The last worker resets the counter. -/
theorem Gathering.reset (h : Gathering workers role count) (hw : w < workers)
    (hresets : role w = .resetting) (hnew : role' w = .leading)
    (hothers : ∀ v < workers, v ≠ w → role' v = role v) : Gathering workers role' 0 := by
  have hwait : ∀ v < workers, v ≠ w → role' v = .waiting := fun v hv hne => by
    rw [hothers v hv hne]
    exact (h.resets w hw hresets).2 v hv hne
  refine ⟨fun hidle => ?_, fun v hv hrole => ?_, fun v hv hrole => ?_⟩
  · rcases hidle w hw with hw' | hw' <;> rw [hnew] at hw' <;> cases hw'
  · by_cases heq : v = w
    · rw [heq, hnew] at hrole
      cases hrole
    · rw [hwait v hv heq] at hrole
      cases hrole
  · by_cases heq : v = w
    · subst heq
      exact ⟨rfl, hwait⟩
    · rw [hwait v hv heq] at hrole
      cases hrole

/-- Until somebody leads, the counter counts those who have arrived. -/
theorem Gathering.count_eq_card (h : Gathering workers role count)
    (hcalm : ∀ w < workers, role w ≠ .leading) : count = (arrived workers role).card := by
  by_cases hresets : ∃ w < workers, role w = .resetting
  · obtain ⟨w, hw, hrole⟩ := hresets
    obtain ⟨hcount, hothers⟩ := h.resets w hw hrole
    have hall : arrived workers role = Finset.range workers := by
      refine Finset.filter_true_of_mem fun v hv => ?_
      by_cases heq : v = w
      · rw [heq, hrole]
        exact nofun
      · rw [hothers v (Finset.mem_range.mp hv) heq]
        exact nofun
    rw [hcount, hall, Finset.card_range]
  · refine (h.waits fun w hw => ?_).1
    cases hrole : role w with
    | away => exact .inl rfl
    | waiting => exact .inr rfl
    | resetting => exact absurd ⟨w, hw, hrole⟩ hresets
    | leading => exact absurd hrole (hcalm w hw)

/-- Somebody is away, resets the counter or leads. -/
theorem Gathering.exists_mover (h : Gathering workers role count) :
    ∃ w < workers, role w ≠ .waiting := by
  by_contra hnone
  push Not at hnone
  obtain ⟨hcount, hlt⟩ := h.waits fun w hw => .inr (hnone w hw)
  have hall : arrived workers role = Finset.range workers := by
    refine Finset.filter_true_of_mem fun w hw => ?_
    rw [hnone w (Finset.mem_range.mp hw)]
    exact nofun
  rw [hall, Finset.card_range] at hcount
  omega

end Barrier
