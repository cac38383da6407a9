import Mathlib.Logic.Hydra
import Mathlib.Tactic

/-!
# Workers that take turns

Workers share a state, and a turn of a worker is a total function on it. A run
is a list of turns, or a schedule that never ends. A schedule is fair to a set of
workers when they are the only ones to take turns and each of them always takes
another one.

A run that is fair ends by the rule of the helpful worker: in every state some
worker is such that its turns bring the run forward and the turns of the others
do not hold it back.
Where every turn that changes anything brings its worker closer to
its end, ranks of the workers are enough.
-/

namespace Turns

variable {State : Type}

/-- The states that turns of the workers in `active` lead to. -/
inductive Reaches (step : ℕ → State → State) (active : ℕ → Prop) (s : State) : State → Prop
  | refl : Reaches step active s s
  | turn {t : State} (h : Reaches step active s t) (w : ℕ) (hw : active w) :
      Reaches step active s (step w t)

variable {step : ℕ → State → State} {active : ℕ → Prop} {s t u : State}

/-- One run after another. -/
theorem Reaches.trans (h : Reaches step active s t) (h' : Reaches step active t u) :
    Reaches step active s u := by
  induction h' with
  | refl => exact h
  | turn _ w hw ih => exact ih.turn w hw

/-- What every turn preserves holds in every state that is reached. -/
theorem Reaches.invariant {Inv : State → Prop} (h : Reaches step active s t)
    (hstep : ∀ s w, Inv s → active w → Inv (step w s)) (hinit : Inv s) : Inv t := by
  induction h with
  | refl => exact hinit
  | turn _ w hw ih => exact hstep _ w ih hw

/-- A run of some workers is a run of more of them. -/
theorem Reaches.mono {more : ℕ → Prop} (himp : ∀ w, active w → more w)
    (h : Reaches step active s t) : Reaches step more s t := by
  induction h with
  | refl => exact .refl
  | turn _ w hw ih => exact ih.turn w (himp w hw)

/-- The state after `n` turns of one worker. -/
def solo (step : ℕ → State → State) (w : ℕ) : ℕ → State → State
  | 0, s => s
  | n + 1, s => solo step w n (step w s)

/-- The turns of one worker are a run. -/
theorem reaches_solo (step : ℕ → State → State) {w : ℕ} (hw : active w) (n : ℕ) (s : State) :
    Reaches step active s (solo step w n s) := by
  induction n generalizing s with
  | zero => exact .refl
  | succ n ih =>
    have hfirst : Reaches step active s (step w s) := Reaches.refl.turn w hw
    exact hfirst.trans (ih (step w s))

/-- The state after the first `n` turns of a schedule. -/
def after (step : ℕ → State → State) (schedule : ℕ → ℕ) (s : State) : ℕ → State
  | 0 => s
  | n + 1 => step (schedule n) (after step schedule s n)

/-- Only the workers in `active` take turns, and each of them always takes another. -/
structure Fair (active : ℕ → Prop) (schedule : ℕ → ℕ) : Prop where
  /-- Every turn is one of an active worker. -/
  turns : ∀ n, active (schedule n)
  /-- Every active worker takes a turn after any moment. -/
  again : ∀ w, active w → ∀ n, ∃ m, n ≤ m ∧ schedule m = w

variable {schedule : ℕ → ℕ}

/-- A schedule leads through states that are reached. -/
theorem Fair.reaches (hfair : Fair active schedule) (s : State) (n : ℕ) :
    Reaches step active s (after step schedule s n) := by
  induction n with
  | zero => exact .refl
  | succ n ih => exact ih.turn (schedule n) (hfair.turns n)

/-- Workers that take turns one after the other. -/
theorem fair_mod {workers : ℕ} (hpos : 0 < workers) : Fair (· < workers) (· % workers) where
  turns n := Nat.mod_lt n hpos
  again w hw n := by
    refine ⟨workers * n + w, ?_, ?_⟩
    · have hle : n ≤ workers * n := Nat.le_mul_of_pos_left n hpos
      omega
    · rw [Nat.mul_add_mod]
      exact Nat.mod_eq_of_lt hw

section Helpful

variable {α β : Type} {less : α → α → Prop} {sooner : β → β → Prop}

/-- A turn of worker `w` brings a run forward in which worker `h` is helpful at distance `b`:
what is left to do shrinks, or it stays and the helpful worker comes closer to the moment
when it shrinks; another worker's turn may also leave the distance as it is. -/
inductive Advances (less : α → α → Prop) (sooner : β → β → Prop) (left : State → α)
    (Helps : State → ℕ → β → Prop) (h : ℕ) (b : β) (w : ℕ) (s t : State) : Prop
  | shrinks (hless : less (left t) (left s))
  | closer (b' : β) (hleft : left t = left s) (hhelps : Helps t h b') (hsooner : sooner b' b)
  | waits (hleft : left t = left s) (hhelps : Helps t h b) (hne : w ≠ h)

/-- **The rule of the helpful worker.** If some active worker is helpful until the run is
done, and every turn of an active worker brings the run forward, then every fair run is
done at some moment. -/
theorem Fair.ends {Inv Done : State → Prop} {left : State → α} {Helps : State → ℕ → β → Prop}
    (hless : WellFounded less) (hsooner : WellFounded sooner) (hfair : Fair active schedule)
    (hinv : ∀ s w, Inv s → ¬Done s → active w → Inv (step w s))
    (hhelps : ∀ s, Inv s → ¬Done s → ∃ h b, active h ∧ Helps s h b)
    (hadvances : ∀ s h b w, Inv s → ¬Done s → Helps s h b → active w →
      Advances less sooner left Helps h b w s (step w s))
    (hinit : Inv s) : ∃ n, Done (after step schedule s n) := by
  -- The measure is the work that is left, then the distance of the helpful worker.
  have hmeasure : ∀ a n, Inv (after step schedule s n) → left (after step schedule s n) = a →
      ∃ m, Done (after step schedule s m) := by
    intro a
    induction a using hless.induction with
    | h a iha =>
      have hdistance : ∀ b h n, active h → Inv (after step schedule s n) →
          left (after step schedule s n) = a → Helps (after step schedule s n) h b →
          ∃ m, Done (after step schedule s m) := by
        intro b h
        induction b using hsooner.induction with
        | h b ihb =>
          intro n hactive hn hleft hb
          obtain ⟨m, hnm, hm⟩ := hfair.again h hactive n
          -- Until the helpful worker's turn, the turns of the others are counted.
          obtain ⟨k, rfl⟩ := Nat.exists_eq_add_of_le hnm
          clear hnm
          induction k generalizing n with
          | zero =>
            by_cases hdone : Done (after step schedule s n)
            · exact ⟨n, hdone⟩
            have hnext := hinv _ (schedule n) hn hdone (hfair.turns n)
            cases hadvances _ h b (schedule n) hn hdone hb (hfair.turns n) with
            | shrinks h => exact iha _ (hleft ▸ h) (n + 1) hnext rfl
            | closer b' hl hh h => exact ihb b' h (n + 1) hactive hnext (hl.trans hleft) hh
            | waits _ _ h => exact absurd hm h
          | succ k ihk =>
            by_cases hdone : Done (after step schedule s n)
            · exact ⟨n, hdone⟩
            have hnext := hinv _ (schedule n) hn hdone (hfair.turns n)
            cases hadvances _ h b (schedule n) hn hdone hb (hfair.turns n) with
            | shrinks h => exact iha _ (hleft ▸ h) (n + 1) hnext rfl
            | closer b' hl hh h => exact ihb b' h (n + 1) hactive hnext (hl.trans hleft) hh
            | waits hl hh _ =>
              refine ihk (n + 1) hnext (hl.trans hleft) hh ?_
              rw [show n + 1 + k = n + (k + 1) by omega, hm]
      intro n hn hleft
      by_cases hdone : Done (after step schedule s n)
      · exact ⟨n, hdone⟩
      · obtain ⟨h, b, hactive, hb⟩ := hhelps _ hn hdone
        exact hdistance b h n hactive hn hleft hb
  exact hmeasure _ 0 hinit rfl

end Helpful

section Ranks

variable {α : Type} {less : α → α → Prop} {rank : State → ℕ → α} {workers w : ℕ}

/-- The ranks of all workers. -/
def ranks (rank : State → ℕ → α) (workers : ℕ) (s : State) : Multiset α :=
  (Multiset.range workers).map (rank s)

/-- A worker that gets a lower rank and leaves the others theirs lowers the ranks. -/
theorem cutExpand_ranks (hw : w < workers) (hself : less (rank t w) (rank s w))
    (hothers : ∀ v < workers, v ≠ w → rank t v = rank s v) :
    Relation.CutExpand less (ranks rank workers t) (ranks rank workers s) := by
  have hsplit : ∀ u, ranks rank workers u =
      {rank u w} + ((Multiset.range workers).erase w).map (rank u) := by
    intro u
    rw [ranks, ← Multiset.cons_erase (Multiset.mem_range.mpr hw), Multiset.map_cons,
      Multiset.erase_cons_head, Multiset.singleton_add]
  have hrest : ((Multiset.range workers).erase w).map (rank t) =
      ((Multiset.range workers).erase w).map (rank s) := by
    refine Multiset.map_congr rfl fun v hv => hothers v ?_ ?_
    · exact Multiset.mem_range.mp (Multiset.mem_of_mem_erase hv)
    · exact ((Multiset.nodup_range workers).mem_erase_iff.mp hv).1
  rw [hsplit t, hsplit s, hrest]
  exact Relation.cutExpand_single_add hself _

/-- **Workers with ranks.** If a turn either changes nothing or lowers the rank of the worker
that takes it and leaves the others theirs, and some worker has such a turn until the run is
done, then every fair run is done at some moment. -/
theorem Fair.ends_of_ranks {Inv Done : State → Prop} (hless : WellFounded less)
    (hfair : Fair (· < workers) schedule)
    (hinv : ∀ s w, Inv s → ¬Done s → w < workers → Inv (step w s))
    (hturn : ∀ s w, Inv s → ¬Done s → w < workers →
      step w s = s ∨ less (rank (step w s) w) (rank s w) ∧ ∀ v < workers, v ≠ w →
      rank (step w s) v = rank s v)
    (hmoves : ∀ s, Inv s → ¬Done s → ∃ w < workers, step w s ≠ s) (hinit : Inv s) :
    ∃ n, Done (after step schedule s n) := by
  have hhelps : ∀ s, Inv s → ¬Done s → ∃ h, ∃ _ : Unit, h < workers ∧ step h s ≠ s := by
    intro s hs hnot
    obtain ⟨w, hw, hmove⟩ := hmoves s hs hnot
    exact ⟨w, (), hw, hmove⟩
  have hadvances : ∀ s h b w, Inv s → ¬Done s → step h s ≠ s → w < workers →
      Advances (Relation.CutExpand less) emptyRelation (ranks rank workers)
        (fun s h (_ : Unit) => step h s ≠ s) h b w s (step w s) := by
    intro s h b w hs hnot hhelps hw
    rcases hturn s w hs hnot hw with hsame | ⟨hself, hothers⟩
    · rw [hsame]
      exact .waits rfl hhelps fun heq => hhelps (heq ▸ hsame)
    · exact .shrinks (cutExpand_ranks hw hself hothers)
  exact hfair.ends hless.cutExpand emptyWf.wf hinv hhelps hadvances hinit

end Ranks

end Turns
