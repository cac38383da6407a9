import Mathlib.Tactic

/-!
# Programs on a state that always return

A program is a function in the state monad. `Ensures` says what holds of its result
and of the state after it, so it is a statement of total correctness; there is one
rule for each way to build a program. A program that can stop with an error leaves
the state it has reached, and there are two postconditions.
-/

/-- A program on states `σ` with results in `α`. -/
abbrev Program (σ α : Type) : Type := StateM σ α

namespace Program

variable {σ α β : Type} {s : σ} {Post Post' : α → σ → Prop}

/-- The result and the state after the program, started in state `s`, meet the
postcondition. -/
def Ensures (x : Program σ α) (s : σ) (Post : α → σ → Prop) : Prop := Post (x s).1 (x s).2

variable {x : Program σ α}

/-- The postcondition can be weakened. -/
theorem Ensures.mono (h : x.Ensures s Post) (himp : ∀ a t, Post a t → Post' a t) :
    x.Ensures s Post' := himp _ _ h

/-- What holds of every result and state. -/
theorem Ensures.of_forall (h : ∀ a t, Post a t) : x.Ensures s Post := h _ _

/-- A program that changes nothing. -/
theorem Ensures.pure {a : α} (h : Post a s) : Ensures (Pure.pure a : Program σ α) s Post := h

/-- One program after the other. -/
theorem Ensures.bind {f : α → Program σ β} {Post : β → σ → Prop} {Mid : α → σ → Prop}
    (h : x.Ensures s Mid) (hf : ∀ a t, Mid a t → (f a).Ensures t Post) :
    Ensures (x >>= f) s Post := hf _ _ h

/-- One program after the other, from what the second one needs. -/
theorem Ensures.seq {f : α → Program σ β} {Post : β → σ → Prop}
    (h : x.Ensures s fun a t => (f a).Ensures t Post) : Ensures (x >>= f) s Post := h

/-- A look at the state. -/
theorem Ensures.get {Post : σ → σ → Prop} (h : Post s s) : Ensures (get : Program σ σ) s Post := h

/-- A change of the state. -/
theorem Ensures.modify {f : σ → σ} {Post : Unit → σ → Prop} (h : Post () (f s)) :
    Ensures (modify f : Program σ Unit) s Post := h

/-- A new state. -/
theorem Ensures.set {t : σ} {Post : PUnit → σ → Prop} (h : Post ⟨⟩ t) :
    Ensures (set t : Program σ PUnit) s Post := h

/-- A branch. -/
theorem Ensures.ite {c : Prop} [Decidable c] {x y : Program σ α} (hx : c → x.Ensures s Post)
    (hy : ¬ c → y.Ensures s Post) : Ensures (if c then x else y) s Post := by
  split
  · exact hx ‹_›
  · exact hy ‹_›

end Program

/-- A program on states `σ` that returns a result in `α` or stops with an error in `ε`. -/
abbrev Fallible (σ ε α : Type) : Type := ExceptT ε (StateM σ) α

namespace Fallible

variable {σ ε α β : Type} {s : σ} {Post Post' : α → σ → Prop} {Fail Fail' : σ → Prop}

/-- A program that cannot stop. -/
def lift (x : Program σ α) : Fallible σ ε α := ExceptT.mk fun s => (.ok (x s).1, (x s).2)

/-- A computation that does not use the state. -/
def ofExcept (x : Except ε α) : Fallible σ ε α := ExceptT.mk fun s => (x, s)

/-- The result and the state after the program meet the first postcondition if it returns, and the
state meets the second one if it stops. -/
def Ensures (x : Fallible σ ε α) (s : σ) (Post : α → σ → Prop) (Fail : σ → Prop) : Prop :=
  (∀ a, (x.run s).1 = .ok a → Post a (x.run s).2) ∧
    ∀ e, (x.run s).1 = .error e → Fail (x.run s).2

variable {x : Fallible σ ε α}

/-- The postconditions can be weakened. -/
theorem Ensures.mono (h : x.Ensures s Post Fail) (himp : ∀ a t, Post a t → Post' a t)
    (hfail : ∀ t, Fail t → Fail' t) :
    x.Ensures s Post' Fail' :=
  ⟨fun a ha => himp a _ (h.1 a ha), fun e he => hfail _ (h.2 e he)⟩

/-- A program that changes nothing. -/
theorem Ensures.pure {a : α} (h : Post a s) :
    Ensures (Pure.pure a : Fallible σ ε α) s Post Fail := by
  refine ⟨fun b hb => ?_, fun e he => ?_⟩
  · obtain rfl : a = b := Except.ok.inj hb
    exact h
  · cases he

/-- A program that stops. -/
theorem Ensures.throw {e : ε} (h : Fail s) :
    Ensures (MonadExcept.throw e : Fallible σ ε α) s Post Fail := by
  refine ⟨fun b hb => ?_, fun _ _ => h⟩
  cases hb

/-- One program after the other, from what the second one needs. -/
theorem Ensures.seq {f : α → Fallible σ ε β} {Post : β → σ → Prop}
    (h : x.Ensures s (fun a t => (f a).Ensures t Post Fail) Fail) :
    Ensures (x >>= f) s Post Fail := by
  obtain ⟨hok, herror⟩ := h
  have hrun : (x >>= f).run s = (x.run s).1.casesOn (fun e => (.error e, (x.run s).2))
      (fun a => (f a).run (x.run s).2) := by
    change (ExceptT.bindCont f (x.run s).1) (x.run s).2 = _
    cases (x.run s).1 <;> rfl
  cases hx : (x.run s).1 with
  | error e =>
    rw [hx] at hrun
    refine ⟨fun b hb => ?_, fun _ _ => ?_⟩
    · rw [hrun] at hb
      cases hb
    · rw [hrun]
      exact herror e hx
  | ok a =>
    rw [hx] at hrun
    unfold Ensures
    rw [hrun]
    exact hok a hx

/-- One program after the other. -/
theorem Ensures.bind {f : α → Fallible σ ε β} {Post : β → σ → Prop} {Mid : α → σ → Prop}
    (h : x.Ensures s Mid Fail) (hf : ∀ a t, Mid a t → (f a).Ensures t Post Fail) :
    Ensures (x >>= f) s Post Fail :=
  Ensures.seq (h.mono hf fun _ => id)

/-- A look at the state. -/
theorem Ensures.get {Post : σ → σ → Prop} (h : Post s s) :
    Ensures (get : Fallible σ ε σ) s Post Fail := by
  refine ⟨fun b hb => ?_, fun e he => ?_⟩
  · obtain rfl : s = b := Except.ok.inj hb
    exact h
  · cases he

/-- A change of the state. -/
theorem Ensures.modify {f : σ → σ} {Post : PUnit → σ → Prop} (h : Post ⟨⟩ (f s)) :
    Ensures (modify f : Fallible σ ε PUnit) s Post Fail :=
  ⟨fun _ _ => h, fun _ he => by cases he⟩

/-- A computation without a state. -/
theorem Ensures.ofExcept {x : Except ε α} (hok : ∀ a, x = .ok a → Post a s)
    (herror : ∀ e, x = .error e → Fail s) : Ensures (ofExcept x : Fallible σ ε α) s Post Fail :=
  ⟨hok, herror⟩

/-- A program that cannot stop, as one step. -/
theorem Ensures.lift {x : Program σ α} (h : x.Ensures s Post) :
    Ensures (lift x : Fallible σ ε α) s Post Fail := by
  refine ⟨fun b hb => ?_, fun e he => ?_⟩
  · obtain rfl : (x s).1 = b := Except.ok.inj hb
    exact h
  · cases he

/-- A branch. -/
theorem Ensures.ite {c : Prop} [Decidable c] {x y : Fallible σ ε α}
    (hx : c → x.Ensures s Post Fail) (hy : ¬ c → y.Ensures s Post Fail) :
    Ensures (if c then x else y) s Post Fail := by
  split
  · exact hx ‹_›
  · exact hy ‹_›

end Fallible
