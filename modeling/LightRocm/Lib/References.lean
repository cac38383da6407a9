import Mathlib.Tactic

/-!
# Counted references

A record of the references to objects that were taken and given back. It is balanced when at no
time more references to an object were given back than had been taken. A holder accounts for a
record when it has exactly the references that are still out.
-/

namespace References

variable {α : Type} [DecidableEq α]

/-- A reference is taken or given back. -/
inductive Reference (α : Type) where
  | retain (object : α)
  | release (object : α)
  deriving DecidableEq

variable {references : List (Reference α)} {held objects : List α}

/-- At no time was a reference given back that had not been taken. -/
def Balanced (references : List (Reference α)) : Prop :=
  ∀ before, before <+: references → ∀ object,
    before.count (.release object) ≤ before.count (.retain object)

/-- The references that are out are those that are held. -/
def Accounts (references : List (Reference α)) (held : List α) : Prop :=
  Balanced references ∧ ∀ object,
    references.count (.retain object) = references.count (.release object) + held.count object

/-- One more entry. -/
theorem Balanced.append {entry : Reference α} (h : Balanced references)
    (hentry : ∀ object, entry = .release object →
      references.count (.release object) < references.count (.retain object)) :
    Balanced (references ++ [entry]) := by
  intro before hbefore object
  rcases List.prefix_concat_iff.mp hbefore with rfl | hshort
  · have hwhole := h references (List.prefix_refl _) object
    cases entry with
    | retain other => grind
    | release other =>
      have hless := hentry other rfl
      by_cases hsame : other = object
      · subst hsame
        grind
      · grind
  · exact h before hshort object

/-- Nothing has happened. -/
theorem Accounts.nil : Accounts ([] : List (Reference α)) [] :=
  ⟨fun before hbefore object => by rw [List.prefix_nil.mp hbefore]; exact le_rfl, fun _ => rfl⟩

/-- A holder may list what it has in any order. -/
theorem Accounts.perm {other : List α} (h : Accounts references held) (hperm : held.Perm other) :
    Accounts references other :=
  ⟨h.1, fun object => by rw [← hperm.count_eq]; exact h.2 object⟩

/-- References are taken. -/
theorem Accounts.retain (h : Accounts references held) (objects : List α) :
    Accounts (references ++ objects.map .retain) (held ++ objects) := by
  induction objects generalizing references held with
  | nil => simpa using h
  | cons object rest ih =>
    have hone : Accounts (references ++ [.retain object]) (held ++ [object]) := by
      refine ⟨h.1.append (by rintro _ ⟨⟩), fun other => ?_⟩
      have hother := h.2 other
      grind
    simpa using ih hone

/-- References are given back. -/
theorem Accounts.release (h : Accounts references (objects ++ held)) :
    Accounts (references ++ objects.map .release) held := by
  induction objects generalizing references with
  | nil => simpa using h
  | cons object rest ih =>
    have hone : Accounts (references ++ [.release object]) (rest ++ held) := by
      refine ⟨h.1.append ?_, fun other => ?_⟩
      · rintro _ ⟨⟩
        have hcount := h.2 object
        grind
      · have hother := h.2 other
        grind
    simpa using ih hone

end References
