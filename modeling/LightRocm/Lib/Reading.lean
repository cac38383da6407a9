import Mathlib.Tactic

/-!
# Readers of an environment that changes

A reader asks one question after the other. Between two questions the environment may change, and
any question may fail, or get less than what is there without the reader being told. If no answer is
of that kind and nothing has changed from the first question to the last one, a reader that succeeds
has read that one environment.
-/

/-- A program that asks questions; an error ends it with a failure. A loop that has not come to its
end is `unfinished`. -/
inductive Reader (Query : Type) (Answer Error : Query → Type) (Failure α : Type) where
  | done (value : α)
  | fail (failure : Failure)
  | unfinished
  | ask (query : Query) (onError : Error query → Failure)
      (next : Answer query → Reader Query Answer Error Failure α)

namespace Reader

variable {Query : Type} {Answer Error : Query → Type} {Failure α β : Type}

protected def bind : Reader Query Answer Error Failure α →
    (α → Reader Query Answer Error Failure β) → Reader Query Answer Error Failure β
  | done value, f => f value
  | fail failure, _ => fail failure
  | unfinished, _ => unfinished
  | ask query onError next, f => ask query onError fun answer => (next answer).bind f

instance : Monad (Reader Query Answer Error Failure) where
  pure := done
  bind := Reader.bind

/-- A computation without questions. -/
def ofExcept : Except Failure α → Reader Query Answer Error Failure α
  | .ok value => done value
  | .error failure => fail failure

/-- One reading for each element of a list. -/
def each (f : α → Reader Query Answer Error Failure β) :
    List α → Reader Query Answer Error Failure (List β)
  | [] => done []
  | x :: xs => do
    let y ← f x
    let ys ← each f xs
    done (y :: ys)

/-- What the questions are answered with at one moment. -/
abbrev Environment (Query : Type) (Answer Error : Query → Type) : Type :=
  (query : Query) → Except (Error query) (Answer query)

/-- A history of the environment: what it is after each number of changes, how many changes come
before each question, and what a question that is disturbed gets. -/
structure World (Query : Type) (Answer Error : Query → Type) where
  content : ℕ → Environment Query Answer Error
  version : ℕ → ℕ
  ordered : Monotone version
  fault : ℕ → (query : Query) → Option (Except (Error query) (Answer query))

/-- What a question asked at a moment gets. -/
def World.answer (world : World Query Answer Error) (moment : ℕ) (query : Query) :
    Except (Error query) (Answer query) :=
  match world.fault moment query with
  | some reply => reply
  | none => world.content (world.version moment) query

/-- Every question that gets an answer gets what is there. -/
def World.Honest (world : World Query Answer Error) : Prop :=
  ∀ moment query answer, world.fault moment query = some (.ok answer) →
    world.content (world.version moment) query = .ok answer

/-- What a reader has come to. -/
abbrev Outcome (Failure α : Type) : Type := Option (Except Failure α)

/-- The reader in one environment. -/
def eval (environment : Environment Query Answer Error) :
    Reader Query Answer Error Failure α → Outcome Failure α
  | done value => some (.ok value)
  | fail failure => some (.error failure)
  | unfinished => none
  | ask query onError next =>
    match environment query with
    | .error error => some (.error (onError error))
    | .ok answer => (next answer).eval environment

/-- The reader in a history, from a moment on, with the moment of the next question. -/
def run (world : World Query Answer Error) :
    Reader Query Answer Error Failure α → ℕ → Outcome Failure α × ℕ
  | done value, moment => (some (.ok value), moment)
  | fail failure, moment => (some (.error failure), moment)
  | unfinished, moment => (none, moment)
  | ask query onError next, moment =>
    match world.answer moment query with
    | .error error => (some (.error (onError error)), moment + 1)
    | .ok answer => (next answer).run world (moment + 1)

theorem le_run (world : World Query Answer Error) (reader : Reader Query Answer Error Failure α) :
    ∀ moment, moment ≤ (reader.run world moment).2 := by
  induction reader with
  | done => exact fun _ => le_rfl
  | fail => exact fun _ => le_rfl
  | unfinished => exact fun _ => le_rfl
  | ask query onError next ih =>
    intro moment
    unfold run
    split
    · exact Nat.le_succ moment
    · exact (Nat.le_succ moment).trans (ih _ _)

variable {world : World Query Answer Error}

/-- A question and what comes after it succeed in a history. -/
theorem run_ask (hhonest : world.Honest) {query : Query} {onError : Error query → Failure}
    {next : Answer query → Reader Query Answer Error Failure α} {value : α} {moment after : ℕ}
    (h : (ask query onError next).run world moment = (some (.ok value), after)) :
    ∃ answer, world.content (world.version moment) query = .ok answer ∧
      (next answer).run world (moment + 1) = (some (.ok value), after) := by
  unfold run at h
  have hanswer : ∀ answer, world.answer moment query = .ok answer →
      world.content (world.version moment) query = .ok answer := by
    intro answer hanswer
    unfold World.answer at hanswer
    cases hfault : world.fault moment query with
    | some reply =>
      rw [hfault] at hanswer
      exact hhonest _ _ _ (hfault.trans (congrArg some hanswer))
    | none =>
      rw [hfault] at hanswer
      exact hanswer
  split at h
  · cases h
  · next answer hreply => exact ⟨answer, hanswer answer hreply, h⟩

variable {reader : Reader Query Answer Error Failure α}

/-- A reader that succeeds while nothing changes has read one environment. -/
theorem eval_of_run (hhonest : world.Honest) {version : ℕ} {value : α} : ∀ {moment after : ℕ},
      reader.run world moment = (some (.ok value), after) →
      (∀ k, moment ≤ k → k < after → world.version k = version) →
      reader.eval (world.content version) = some (.ok value) := by
  induction reader with
  | done => exact fun h _ => congrArg Prod.fst h
  | fail => exact fun h _ => congrArg Prod.fst h
  | unfinished => exact fun h _ => congrArg Prod.fst h
  | ask query onError next ih =>
    intro moment after h hsame
    obtain ⟨answer, hanswer, hnext⟩ := run_ask hhonest h
    have hle := (next answer).le_run world (moment + 1)
    rw [hnext] at hle
    rw [hsame moment le_rfl hle] at hanswer
    unfold eval
    rw [hanswer]
    exact ih answer hnext fun k hk => hsame k (Nat.le_of_succ_le hk)

section Eval

variable {environment : Environment Query Answer Error}

/-- A question and what comes after it succeed. -/
theorem eval_ask {query : Query} {onError : Error query → Failure}
    {next : Answer query → Reader Query Answer Error Failure α} {a : α} :
    (ask query onError next).eval environment = some (.ok a) ↔
      ∃ answer, environment query = .ok answer ∧ (next answer).eval environment = some (.ok a) := by
  conv_lhs => unfold eval
  cases environment query with
  | error error => exact ⟨by rintro ⟨⟩, by rintro ⟨_, ⟨⟩, _⟩⟩
  | ok answer =>
    refine ⟨fun h => ⟨answer, rfl, h⟩, ?_⟩
    rintro ⟨_, ⟨⟩, h⟩
    exact h

variable {f : α → Reader Query Answer Error Failure β}

/-- Both parts of a reader that succeeds have succeeded. -/
theorem eval_bind {b : β} :
    (reader >>= f).eval environment = some (.ok b) ↔
      ∃ a, reader.eval environment = some (.ok a) ∧ (f a).eval environment = some (.ok b) := by
  induction reader with
  | done value =>
    refine ⟨fun h => ⟨value, rfl, h⟩, ?_⟩
    rintro ⟨_, ⟨⟩, h⟩
    exact h
  | fail failure => exact ⟨by rintro ⟨⟩, by rintro ⟨_, ⟨⟩, _⟩⟩
  | unfinished => exact ⟨by rintro ⟨⟩, by rintro ⟨_, ⟨⟩, _⟩⟩
  | ask query onError next ih =>
    change (ask query onError fun answer => next answer >>= f).eval environment = _ ↔ _
    simp only [eval_ask, ih]
    constructor
    · rintro ⟨answer, hanswer, a, ha, hb⟩
      exact ⟨a, ⟨answer, hanswer, ha⟩, hb⟩
    · rintro ⟨a, ⟨answer, hanswer, ha⟩, hb⟩
      exact ⟨answer, hanswer, a, ha, hb⟩

/-- Every reading of a list succeeds. -/
theorem eval_each {xs : List α} :
    ∀ {ys : List β}, (each f xs).eval environment = some (.ok ys) ↔
      List.Forall₂ (fun x y => (f x).eval environment = some (.ok y)) xs ys := by
  induction xs with
  | nil =>
    intro ys
    rw [List.forall₂_nil_left_iff]
    exact ⟨by rintro ⟨⟩; rfl, by rintro rfl; rfl⟩
  | cons x xs ih =>
    intro ys
    unfold each
    simp only [eval_bind, ih]
    constructor
    · rintro ⟨y, hy, rest, hrest, ⟨⟩⟩
      exact .cons hy hrest
    · rintro (_ | ⟨hy, hrest⟩)
      exact ⟨_, hy, _, hrest, rfl⟩

end Eval

/-- Every failure of the reader meets a condition, whatever it is answered. -/
def FailsWith (P : Failure → Prop) : Reader Query Answer Error Failure α → Prop
  | done _ => True
  | fail failure => P failure
  | unfinished => True
  | ask _ onError next => (∀ error, P (onError error)) ∧ ∀ answer, (next answer).FailsWith P

section FailsWith

variable {P : Failure → Prop}

theorem FailsWith.bind {f : α → Reader Query Answer Error Failure β} (h : reader.FailsWith P)
    (hf : ∀ a, (f a).FailsWith P) : (reader >>= f).FailsWith P := by
  induction reader with
  | done value => exact hf value
  | fail failure => exact h
  | unfinished => exact trivial
  | ask query onError next ih => exact ⟨h.1, fun answer => ih answer (h.2 answer)⟩

theorem FailsWith.ofExcept {result : Except Failure α} (h : ∀ failure, result = .error failure →
    P failure) : (ofExcept result : Reader Query Answer Error Failure α).FailsWith P := by
  cases result with
  | ok value => exact trivial
  | error failure => exact h failure rfl

theorem FailsWith.each {xs : List α} {f : α → Reader Query Answer Error Failure β}
    (h : ∀ x, (f x).FailsWith P) : (each f xs).FailsWith P := by
  induction xs with
  | nil => exact trivial
  | cons x xs ih => exact (h x).bind fun _ => ih.bind fun _ => trivial

theorem FailsWith.run {failure : Failure} (h : reader.FailsWith P) :
    ∀ {moment after : ℕ}, reader.run world moment = (some (.error failure), after) → P failure := by
  induction reader with
  | done => rintro _ _ ⟨⟩
  | fail =>
    rintro _ _ ⟨⟩
    exact h
  | unfinished => rintro _ _ ⟨⟩
  | ask query onError next ih =>
    intro moment after hrun
    unfold Reader.run at hrun
    split at hrun
    · obtain rfl : onError _ = failure :=
        Except.error.inj (Option.some.inj (congrArg Prod.fst hrun))
      exact h.1 _
    · exact ih _ (h.2 _) hrun

end FailsWith

end Reader
