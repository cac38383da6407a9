import Mathlib.Tactic

/-!
# Sorting, and the search for a boundary by halving

A way to sort by a key may leave equal keys in any order. The positions of a range with
some property come before those without it; the search finds the first one without it.
In a list it finds what a search from the front finds.
-/

/-- A way to sort by a key. -/
structure Sorting {α κ : Type} [LE κ] (key : α → κ) where
  sort : List α → List α
  perm : ∀ l, (sort l).Perm l
  sorted : ∀ l, (sort l).Pairwise fun a b => key a ≤ key b

/-- Sorting by insertion. -/
def Sorting.insertion {α κ : Type} [LE κ] [DecidableLE κ] [Std.IsLinearPreorder κ] (key : α → κ) :
    Sorting key where
  sort := List.insertionSort fun a b => key a ≤ key b
  perm := List.perm_insertionSort _
  sorted l := by
    have : Std.Total fun a b : α => key a ≤ key b := ⟨fun a b => Std.le_total⟩
    have : IsTrans α fun a b => key a ≤ key b := ⟨fun _ _ _ => Std.le_trans⟩
    exact List.pairwise_insertionSort _ l

namespace BinarySearch

/-- The first of the `length` positions from `first` on that is not before the boundary. -/
def lowerBound (before : ℕ → Bool) (first length : ℕ) : ℕ :=
  if length = 0 then first
  else if before (first + length / 2) = true then
    lowerBound before (first + length / 2 + 1) (length - length / 2 - 1)
  else lowerBound before first (length / 2)
termination_by length

/-- What the search finds if there is a boundary. -/
theorem lowerBound_spec {before : ℕ → Bool} {first length : ℕ}
    (hbefore : ∀ i j, first ≤ i → i ≤ j → j < first + length → before j = true → before i = true) :
    first ≤ lowerBound before first length ∧ lowerBound before first length ≤ first + length ∧
      (∀ i, first ≤ i → i < lowerBound before first length → before i = true) ∧
      ∀ i, lowerBound before first length ≤ i → i < first + length → before i = false := by
  induction length using Nat.strong_induction_on generalizing first with
  | _ length ih =>
    rw [lowerBound]
    split
    · next hzero => exact ⟨le_rfl, by omega, fun i hi hlt => by omega, fun i hi hlt => by omega⟩
    next hpos =>
    split
    · next hmiddle =>
      obtain ⟨hlow, hhigh, hleft, hright⟩ := @ih (length - length / 2 - 1) (by omega)
        (first + length / 2 + 1) fun i j hi hij hj => hbefore i j (by omega) hij (by omega)
      refine ⟨by omega, by omega, fun i hi hlt => ?_, fun i hi hlt => hright i hi (by omega)⟩
      by_cases hmid : i ≤ first + length / 2
      · exact hbefore i _ hi hmid (by omega) hmiddle
      · exact hleft i (by omega) hlt
    · next hmiddle =>
      obtain ⟨hlow, hhigh, hleft, hright⟩ := @ih (length / 2) (by omega) first
        fun i j hi hij hj => hbefore i j hi hij (by omega)
      refine ⟨hlow, by omega, hleft, fun i hi hlt => ?_⟩
      by_cases hmid : i < first + length / 2
      · exact hright i hi hmid
      · by_contra htrue
        exact hmiddle (hbefore _ i (by omega) (by omega) hlt (Bool.eq_true_of_not_eq_false htrue))

/-- In a list the search finds what a search from the front does. -/
theorem drop_lowerBound {α : Type} {p : α → Bool} {l : List α}
    (hsorted : l.Pairwise fun a b => p b = true → p a = true) :
    l.drop (lowerBound (fun i => (l[i]?).any p) 0 l.length) = l.dropWhile p := by
  have hspec := @lowerBound_spec (fun i => (l[i]?).any p) 0 l.length fun i j _ hij hj htrue => by
    rcases Nat.eq_or_lt_of_le hij with rfl | hlt
    · exact htrue
    · simp only [List.getElem?_eq_getElem (by omega : j < l.length),
        List.getElem?_eq_getElem (by omega : i < l.length), Option.any_some] at htrue ⊢
      exact List.pairwise_iff_getElem.mp hsorted i j (by omega) (by omega) hlt htrue
  generalize lowerBound (fun i => (l[i]?).any p) 0 l.length = bound at hspec ⊢
  obtain ⟨-, hbound, hleft, hright⟩ := hspec
  have hfront : ∀ a ∈ l.take bound, p a = true := by
    intro a ha
    obtain ⟨i, hi, rfl⟩ := List.mem_iff_getElem.mp ha
    rw [List.length_take] at hi
    have htrue := hleft i (Nat.zero_le i) (by omega)
    rw [List.getElem?_eq_getElem (by omega : i < l.length), Option.any_some] at htrue
    rw [List.getElem_take]
    exact htrue
  have hback : (l.drop bound).dropWhile p = l.drop bound := by
    by_cases hlen : bound < l.length
    · have hfalse := hright bound le_rfl (by omega)
      rw [List.getElem?_eq_getElem hlen, Option.any_some] at hfalse
      rw [List.drop_eq_getElem_cons hlen, List.dropWhile_cons_of_neg (by simp [hfalse])]
    · rw [List.drop_eq_nil_of_le (by omega), List.dropWhile_nil]
  calc l.drop bound = (l.take bound ++ l.drop bound).dropWhile p := by
        rw [List.dropWhile_append_of_pos hfront, hback]
    _ = l.dropWhile p := by rw [List.take_append_drop]

end BinarySearch
