import Mathlib.Tactic

/-!
# Programs that can stop with an error

Rules for programs in `Except ε`: when a program that refuses bad input returns, and
what it can stop with.
-/

namespace LightRocm.Checked

variable {ε α β : Type}

/-- Stop if a condition holds. -/
def refuse (bad : Prop) [Decidable bad] (error : ε) : Except ε Unit :=
  if bad then .error error else .ok ()

/-- All errors that the program can stop with meet a condition. -/
def StopsWith (P : ε → Prop) (x : Except ε α) : Prop := ∀ e, x = .error e → P e

section Ok

variable {x : Except ε α} {f : α → Except ε β} {b : β}

/-- Both parts of a program that returns have returned. -/
theorem bind_eq_ok : (x >>= f) = .ok b ↔ ∃ a, x = .ok a ∧ f a = .ok b := by
  cases x with
  | ok a => exact ⟨fun h => ⟨a, rfl, h⟩, fun ⟨_, ha, h⟩ => Except.ok.inj ha ▸ h⟩
  | error e =>
    constructor
    · rintro ⟨⟩
    · rintro ⟨_, ⟨⟩, _⟩

/-- A program that returns goes on. -/
@[simp]
theorem ok_bind {a : α} : ((.ok a : Except ε α) >>= f) = f a := rfl

/-- A check has passed. -/
@[simp]
theorem refuse_eq_ok {bad : Prop} [Decidable bad] {error : ε} {u : Unit} :
    refuse bad error = .ok u ↔ ¬bad := by
  unfold refuse
  split <;> simp_all

/-- A check has passed, and what comes after it returns. -/
theorem after_refuse_eq_ok {bad : Prop} [Decidable bad] {error : ε} {f : Unit → Except ε β} :
    (refuse bad error >>= f) = .ok b ↔ ¬bad ∧ f () = .ok b := by
  rw [bind_eq_ok]
  exact ⟨fun ⟨_, hpass, h⟩ => ⟨refuse_eq_ok.mp hpass, h⟩,
    fun ⟨hpass, h⟩ => ⟨(), refuse_eq_ok.mpr hpass, h⟩⟩

/-- A loop returns if each of its rounds does. -/
theorem forM_eq_ok {xs : List α} {g : α → Except ε Unit} {u : Unit} :
    xs.forM g = .ok u ↔ ∀ x ∈ xs, g x = .ok () := by
  induction xs with
  | nil => exact ⟨fun _ => by simp, fun _ => rfl⟩
  | cons x xs ih =>
    rw [List.forM, bind_eq_ok, List.forall_mem_cons, ← ih]
    exact ⟨fun ⟨_, hx, hxs⟩ => ⟨hx, hxs⟩, fun ⟨hx, hxs⟩ => ⟨(), hx, hxs⟩⟩

/-- A search whose tests return is a search. -/
theorem allM_eq_ok {xs : List α} {g : α → Except ε Bool} {p : α → Bool}
    (h : ∀ x ∈ xs, g x = .ok (p x)) : xs.allM g = .ok (xs.all p) := by
  induction xs with
  | nil => rfl
  | cons x xs ih =>
    have hrest := ih fun y hy => h y (List.mem_cons_of_mem x hy)
    cases hx : p x with
    | false =>
      rw [List.allM, h x List.mem_cons_self, List.all_cons, hx]
      rfl
    | true =>
      rw [List.allM, h x List.mem_cons_self, List.all_cons, hx]
      exact hrest

/-- A fold whose steps return is a fold. -/
theorem foldlM_eq_ok {xs : List α} {g : β → α → Except ε β} {k : β → α → β}
    (h : ∀ x ∈ xs, ∀ b, g b x = .ok (k b x)) (b : β) : xs.foldlM g b = .ok (xs.foldl k b) := by
  induction xs generalizing b with
  | nil => rfl
  | cons x xs ih =>
    rw [List.foldlM_cons, h x List.mem_cons_self]
    exact ih (fun y hy => h y (List.mem_cons_of_mem x hy)) _

end Ok

section StopsWith

variable {P : ε → Prop} {x : Except ε α} {f : α → Except ε β}

/-- A program that returns does not stop. -/
theorem StopsWith.ok (a : α) : StopsWith P (.ok a : Except ε α) := by
  rintro e ⟨⟩

/-- A check stops with its own error. -/
theorem StopsWith.refuse {bad : Prop} [Decidable bad] {error : ε} (h : P error) :
    StopsWith P (Checked.refuse bad error) := by
  unfold Checked.refuse
  split
  · rintro e ⟨⟩
    exact h
  · exact .ok ()

/-- The second part may use what the first one returns. -/
theorem StopsWith.bind (hx : StopsWith P x) (hf : ∀ a, x = .ok a → StopsWith P (f a)) :
    StopsWith P (x >>= f) := by
  cases x with
  | ok a => exact hf a rfl
  | error e =>
    rintro e' ⟨⟩
    exact hx e rfl

/-- A check and what comes after it. -/
theorem StopsWith.after_refuse {bad : Prop} [Decidable bad] {error : ε}
    {f : Unit → Except ε β} (h : P error) (hf : ¬bad → StopsWith P (f ())) :
    StopsWith P (Checked.refuse bad error >>= f) :=
  (StopsWith.refuse h).bind fun _ hok => hf (refuse_eq_ok.mp hok)

/-- A loop stops with the error of one of its rounds. -/
theorem StopsWith.forM {xs : List α} {g : α → Except ε Unit} (h : ∀ x ∈ xs, StopsWith P (g x)) :
    StopsWith P (xs.forM g) := by
  induction xs with
  | nil => exact .ok ()
  | cons x xs ih =>
    rw [List.forM]
    exact (h x List.mem_cons_self).bind fun _ _ =>
      ih fun y hy => h y (List.mem_cons_of_mem x hy)

end StopsWith

/-- A program that returns exactly if a condition holds, and stops otherwise with an error of a
kind. -/
structure Decides (P : ε → Prop) (x : Except ε Unit) (b : Bool) : Prop where
  ok_iff : x = .ok () ↔ b = true
  stops : StopsWith P x

section Decides

variable {P : ε → Prop} {x : Except ε Unit} {f : Unit → Except ε Unit} {b c : Bool}

/-- One program after another. -/
theorem Decides.bind (hx : Decides P x c) (hf : c = true → Decides P (f ()) b) :
    Decides P (x >>= f) (c && b) := by
  constructor
  · rw [bind_eq_ok, Bool.and_eq_true]
    constructor
    · rintro ⟨⟨⟩, hok, hrest⟩
      have hc := hx.ok_iff.mp hok
      exact ⟨hc, (hf hc).ok_iff.mp hrest⟩
    · rintro ⟨hc, hb⟩
      exact ⟨(), hx.ok_iff.mpr hc, (hf hc).ok_iff.mpr hb⟩
  · exact hx.stops.bind fun _ hok => (hf (hx.ok_iff.mp hok)).stops

/-- A check. -/
theorem Decides.refuse {bad : Prop} [Decidable bad] {error : ε} (hbad : ¬bad ↔ c = true)
    (h : P error) : Decides P (Checked.refuse bad error) c :=
  ⟨refuse_eq_ok.trans hbad, .refuse h⟩

/-- A loop of checks. -/
theorem Decides.forM {xs : List α} {g : α → Except ε Unit} {p : α → Bool}
    (h : ∀ x ∈ xs, Decides P (g x) (p x)) : Decides P (xs.forM g) (xs.all p) := by
  refine ⟨?_, .forM fun x hx => (h x hx).stops⟩
  rw [forM_eq_ok, List.all_eq_true]
  exact forall₂_congr fun x hx => (h x hx).ok_iff

end Decides

end LightRocm.Checked
