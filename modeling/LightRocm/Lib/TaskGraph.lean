import Mathlib.Logic.Relation
import Mathlib.Tactic

/-!
# Tasks that share a memory

A task is an action: reads and writes of a memory, one at a time. The tasks of a
graph run concurrently, each after those it depends on. When two tasks that no
chain of dependencies orders never touch what the other one writes, every
execution ends with the memory of the sequential execution.
-/

namespace TaskGraph

variable {Loc Val : Type} [DecidableEq Loc]

/-- What is left to do of a task. -/
inductive Action (Loc Val : Type) where
  | done
  | read (l : Loc) (next : Val → Action Loc Val)
  | write (l : Loc) (v : Val) (next : Action Loc Val)

namespace Action

/-- The action and the memory after one access. -/
def step : Action Loc Val → (Loc → Val) → Action Loc Val × (Loc → Val)
  | done, m => (done, m)
  | read l next, m => (next (m l), m)
  | write l v next, m => (next, Function.update m l v)

/-- The action has no more accesses to make. -/
def isDone : Action Loc Val → Bool
  | done => true
  | read _ _ | write _ _ _ => false

/-- The memory after all accesses. -/
def run : Action Loc Val → (Loc → Val) → (Loc → Val)
  | done, m => m
  | read l next, m => (next (m l)).run m
  | write l v next, m => next.run (Function.update m l v)

/-- The locations that are read. -/
def reads : Action Loc Val → (Loc → Val) → List Loc
  | done, _ => []
  | read l next, m => l :: (next (m l)).reads m
  | write l v next, m => next.reads (Function.update m l v)

/-- The locations that are written. -/
def writes : Action Loc Val → (Loc → Val) → List Loc
  | done, _ => []
  | read l next, m => (next (m l)).writes m
  | write l v next, m => l :: next.writes (Function.update m l v)

/-- An action leaves alone what it does not write. -/
theorem run_of_notMem (a : Action Loc Val) {m : Loc → Val} {l : Loc} (h : l ∉ a.writes m) :
    a.run m l = m l := by
  induction a generalizing m with
  | done => rfl
  | read l' next ih => exact ih (m l') h
  | write l' v next ih =>
    have hne := List.ne_of_not_mem_cons h
    have hrest := List.not_mem_of_not_mem_cons h
    rw [run, ih hrest, Function.update_of_ne hne]

/-- One access brings an action closer to its end. -/
def Next (a' a : Action Loc Val) : Prop :=
  a.isDone = false ∧ ∃ m, a' = (a.step m).1

/-- Every action ends, whatever it reads. -/
theorem wellFounded_next : WellFounded (@Next Loc Val _) := by
  constructor
  intro a
  induction a with
  | done => exact ⟨_, fun a' h => absurd h.1 (by simp [isDone])⟩
  | read l next ih =>
    constructor
    rintro a' ⟨-, m, rfl⟩
    exact ih (m l)
  | write l v next ih =>
    constructor
    rintro a' ⟨-, m, rfl⟩
    exact ih

end Action

/-- How far a task has come. -/
inductive Progress (Loc Val : Type) where
  | idle
  | running (a : Action Loc Val)
  | finished

/-- An execution of the tasks of a graph. -/
@[ext]
structure Exec (Loc Val : Type) where
  /-- The memory. -/
  memory : Loc → Val
  /-- The tasks. -/
  tasks : ℕ → Progress Loc Val

/-- A graph of tasks `0`, …, `count - 1`; a task depends on earlier ones only. -/
structure Graph (Loc Val : Type) where
  /-- Number of tasks. -/
  count : ℕ
  /-- The tasks. -/
  action : ℕ → Action Loc Val
  /-- `depends t d` holds when task `t` depends on task `d`. -/
  depends : ℕ → ℕ → Prop
  /-- The order of the tasks is one in which they can run. -/
  lt_of_depends : ∀ {t d}, t < count → depends t d → d < t

namespace Graph

variable (G : Graph Loc Val)

/-- The memory after the first `n` tasks, one after the other. -/
def sequential (m : Loc → Val) : ℕ → (Loc → Val)
  | 0 => m
  | n + 1 => (G.action n).run (sequential m n)

/-- What task `t` reads when the tasks run one after the other. -/
def reads (m : Loc → Val) (t : ℕ) : List Loc :=
  (G.action t).reads (G.sequential m t)

/-- What task `t` writes when the tasks run one after the other. -/
def writes (m : Loc → Val) (t : ℕ) : List Loc :=
  (G.action t).writes (G.sequential m t)

/-- A chain of dependencies leads from task `t` to task `d`. -/
def Ordered (d t : ℕ) : Prop :=
  Relation.TransGen (fun d t => t < G.count ∧ G.depends t d) d t

/-- Tasks that no chain of dependencies orders do not touch what the other writes. -/
def ConflictFree (m : Loc → Val) : Prop :=
  ∀ t t', t < G.count → t' < G.count → t ≠ t' → ¬G.Ordered t t' → ¬G.Ordered t' t →
    ∀ l ∈ G.writes m t', l ∉ G.reads m t ∧ l ∉ G.writes m t

variable {G} {m : Loc → Val} {x y : Exec Loc Val}

omit [DecidableEq Loc] in
/-- A chain of dependencies leads to an earlier task. -/
theorem Ordered.lt {d t : ℕ} (h : G.Ordered d t) : d < t := by
  induction h with
  | single h => exact G.lt_of_depends h.1 h.2
  | tail _ h ih => exact ih.trans (G.lt_of_depends h.1 h.2)

/-- What the tasks from `i` up to `n` do not write has not changed. -/
theorem sequential_eq {i n : ℕ} {l : Loc} (hle : i ≤ n)
    (h : ∀ t, i ≤ t → t < n → l ∉ G.writes m t) : G.sequential m n l = G.sequential m i l := by
  induction n, hle using Nat.le_induction with
  | base => rfl
  | succ n hin ih =>
    have hlast := (G.action n).run_of_notMem (h n hin n.lt_succ_self)
    rw [sequential, hlast]
    exact ih fun t hit htn => h t hit (htn.trans n.lt_succ_self)

/-- The execution has done, of every location, what the sequential execution does. -/
structure Follows (G : Graph Loc Val) (m : Loc → Val) (x : Exec Loc Val) : Prop where
  /-- Only the tasks of the graph run. -/
  lt_count : ∀ {t}, x.tasks t ≠ .idle → t < G.count
  /-- A task starts after those it depends on. -/
  finished : ∀ {t d}, x.tasks t ≠ .idle → G.depends t d → x.tasks d = .finished
  /-- A task that runs does what it does in the sequential execution. -/
  running : ∀ {t a}, x.tasks t = .running a → ∃ m', a.run m' = G.sequential m (t + 1) ∧
    (∀ l ∈ a.reads m', l ∈ G.reads m t) ∧ (∀ l ∈ a.writes m', l ∈ G.writes m t) ∧
    (∀ l ∈ a.reads m', x.memory l = m' l) ∧ ∀ l ∈ G.writes m t, x.memory l = m' l
  /-- A location has the value it has in the sequential execution between the tasks that
  have finished and those that have not started. -/
  settled : ∀ {l n}, n ≤ G.count → (∀ t, t < n → l ∈ G.writes m t → x.tasks t = .finished) →
    (∀ t, n ≤ t → t < G.count → l ∈ G.writes m t → x.tasks t = .idle) →
    x.memory l = G.sequential m n l

/-- Before any task has started. -/
theorem Follows.init (hidle : ∀ t, x.tasks t = .idle) (hmemory : x.memory = m) :
    G.Follows m x where
  lt_count h := absurd (hidle _) h
  finished h := absurd (hidle _) h
  running h := by rw [hidle] at h; cases h
  settled {l n} _ hbefore _ := by
    rw [sequential_eq n.zero_le, sequential, hmemory]
    intro t _ htn hmem
    have hfinished := hbefore t htn hmem
    rw [hidle] at hfinished
    cases hfinished

/-- A task that has started comes after every task a chain leads to. -/
theorem Follows.finished_of_ordered (h : G.Follows m x) {t d : ℕ} (hordered : G.Ordered d t)
    (hstarted : x.tasks t ≠ .idle) : x.tasks d = .finished := by
  induction hordered with
  | single hdepends => exact h.finished hstarted hdepends.2
  | tail _ hdepends ih =>
    refine ih ?_
    rw [h.finished hstarted hdepends.2]
    exact nofun

/-- All tasks that a task may start after have finished once its dependencies have. -/
theorem Follows.finished_of_depends (h : G.Follows m x) {t d : ℕ}
    (hdepends : ∀ d, G.depends t d → x.tasks d = .finished) (hordered : G.Ordered d t) :
    x.tasks d = .finished := by
  cases hordered with
  | single hlast => exact hdepends d hlast.2
  | tail hchain hlast =>
    refine h.finished_of_ordered hchain ?_
    rw [hdepends _ hlast.2]
    exact nofun

/-- Every task before which another one may run is still idle while that one is not done. -/
theorem Follows.idle_of_ordered (h : G.Follows m x) {t t' : ℕ} (hordered : G.Ordered t t')
    (hnot : x.tasks t ≠ .finished) : x.tasks t' = .idle := by
  by_contra hstarted
  exact hnot (h.finished_of_ordered hordered hstarted)

/-- Of two tasks of which one writes what the other touches, one comes before the other. -/
theorem ordered_of_touch (hfree : G.ConflictFree m) {t t' : ℕ} {l : Loc} (ht : t < G.count)
    (ht' : t' < G.count) (hne : t ≠ t') (hwrite : l ∈ G.writes m t')
    (htouch : l ∈ G.reads m t ∨ l ∈ G.writes m t) : G.Ordered t t' ∨ G.Ordered t' t := by
  by_contra hnone
  obtain ⟨h1, h2⟩ := not_or.mp hnone
  obtain ⟨hread, hwrites⟩ := hfree t t' ht ht' hne h1 h2 l hwrite
  exact htouch.elim hread hwrites

/-- A task starts. -/
theorem Follows.start (h : G.Follows m x) (hfree : G.ConflictFree m) {t : ℕ} (ht : t < G.count)
    (hidle : x.tasks t = .idle) (hdepends : ∀ d, G.depends t d → x.tasks d = .finished) :
    G.Follows m { x with tasks := Function.update x.tasks t (.running (G.action t)) } := by
  -- Whoever writes what the task touches has finished if it comes before, else not started.
  have hvalue : ∀ l, (l ∈ G.reads m t ∨ l ∈ G.writes m t) →
      x.memory l = G.sequential m t l := by
    intro l htouch
    refine h.settled ht.le (fun t' hlt hwrite => ?_) fun t' hle hcount hwrite => ?_
    · rcases ordered_of_touch hfree ht (hlt.trans ht) hlt.ne' hwrite htouch with hord | hord
      · exact absurd hord.lt (by omega)
      · exact h.finished_of_depends hdepends hord
    · by_cases heq : t' = t
      · rw [heq, hidle]
      · rcases ordered_of_touch hfree ht hcount (Ne.symm heq) hwrite htouch with hord | hord
        · refine h.idle_of_ordered hord ?_
          rw [hidle]
          exact nofun
        · exact absurd hord.lt (by omega)
  have hne : ∀ {t' : ℕ}, x.tasks t' = .finished → t' ≠ t := by
    rintro t' hfinished rfl
    rw [hidle] at hfinished
    cases hfinished
  refine ⟨fun {t'} hstarted => ?_, fun {t' d} hstarted hdep => ?_, fun {t' a} hrun => ?_,
    fun {l n} hn hbefore hafter => ?_⟩
  · by_cases heq : t' = t
    · rw [heq]
      exact ht
    · exact h.lt_count (by simpa [heq] using hstarted)
  · have hfinished : x.tasks d = .finished := by
      by_cases heq : t' = t
      · exact hdepends d (heq ▸ hdep)
      · exact h.finished (by simpa [heq] using hstarted) hdep
    dsimp only
    rw [Function.update_of_ne (hne hfinished), hfinished]
  · by_cases heq : t' = t
    · subst heq
      obtain rfl : G.action t' = a := by simpa using hrun
      exact ⟨G.sequential m t', rfl, fun _ hl => hl, fun _ hl => hl,
        fun l hl => hvalue l (.inl hl), fun l hl => hvalue l (.inr hl)⟩
    · exact h.running (by simpa [heq] using hrun)
  · refine h.settled hn (fun t' hlt hwrite => ?_) fun t' hle hcount hwrite => ?_
    · have hfinished := hbefore t' hlt hwrite
      by_cases heq : t' = t
      · simp [heq] at hfinished
      · simpa [heq] using hfinished
    · have hstill := hafter t' hle hcount hwrite
      by_cases heq : t' = t
      · simp [heq] at hstill
      · simpa [heq] using hstill

/-- Two tasks that both run are ordered by no chain. -/
theorem Follows.not_ordered (h : G.Follows m x) {t t' : ℕ} {a a' : Action Loc Val}
    (hrun : x.tasks t = .running a) (hrun' : x.tasks t' = .running a') : ¬G.Ordered t t' := by
  intro hord
  have hfinished := h.finished_of_ordered hord (by rw [hrun']; exact nofun)
  rw [hrun] at hfinished
  cases hfinished

/-- A task makes one access. -/
theorem Follows.act (h : G.Follows m x) (hfree : G.ConflictFree m) {t : ℕ} {a : Action Loc Val}
    (hrun : x.tasks t = .running a) :
    G.Follows m { memory := (a.step x.memory).2
                  tasks := Function.update x.tasks t (.running (a.step x.memory).1) } := by
  have hlt : t < G.count := h.lt_count (by rw [hrun]; exact nofun)
  obtain ⟨m', hend, hreads, hwrites, hread, hwrite⟩ := h.running hrun
  -- What the access writes is a location the task writes.
  have hkeep : ∀ l, l ∉ G.writes m t → (a.step x.memory).2 l = x.memory l := by
    intro l hl
    cases a with
    | done | read => rfl
    | write l' v next =>
      have hne : l ≠ l' := by
        rintro rfl
        exact hl (hwrites l List.mem_cons_self)
      exact Function.update_of_ne hne _ _
  have hidle : ∀ {t' : ℕ}, Function.update x.tasks t (.running (a.step x.memory).1) t' = .idle ↔
      x.tasks t' = .idle := by
    intro t'
    by_cases heq : t' = t
    · simp [heq, hrun]
    · simp [heq]
  have hfinished : ∀ {t' : ℕ},
      Function.update x.tasks t (.running (a.step x.memory).1) t' = .finished ↔
      x.tasks t' = .finished := by
    intro t'
    by_cases heq : t' = t
    · simp [heq, hrun]
    · simp [heq]
  refine ⟨fun hstarted => h.lt_count (mt hidle.mpr hstarted), fun hstarted hdep =>
    hfinished.mpr (h.finished (mt hidle.mpr hstarted) hdep), fun {t' a'} hrun' => ?_,
    fun {l n} hn hbefore hafter => ?_⟩
  · by_cases heq : t' = t
    · subst heq
      obtain rfl : (a.step x.memory).1 = a' := by simpa using hrun'
      cases a with
      | done => exact ⟨m', hend, hreads, hwrites, hread, hwrite⟩
      | read l next =>
        have hvalue : x.memory l = m' l := hread l List.mem_cons_self
        refine ⟨m', ?_, ?_, ?_, ?_, hwrite⟩
        · simp only [Action.step, hvalue]
          exact hend
        · simp only [Action.step, hvalue]
          exact fun l' hl' => hreads l' (List.mem_cons_of_mem _ hl')
        · simp only [Action.step, hvalue]
          exact hwrites
        · simp only [Action.step, hvalue]
          exact fun l' hl' => hread l' (List.mem_cons_of_mem _ hl')
      | write l v next =>
        have hagree : ∀ l', x.memory l' = m' l' →
            Function.update x.memory l v l' = Function.update m' l v l' := by
          intro l' hl'
          by_cases hl : l' = l
          · simp [hl]
          · simpa [hl] using hl'
        exact ⟨Function.update m' l v, hend, hreads,
          fun l' hl' => hwrites l' (List.mem_cons_of_mem _ hl'),
          fun l' hl' => hagree l' (hread l' hl'), fun l' hl' => hagree l' (hwrite l' hl')⟩
    · have hold : x.tasks t' = .running a' := by simpa [heq] using hrun'
      have hlt' : t' < G.count := h.lt_count (by rw [hold]; exact nofun)
      obtain ⟨m'', hend', hreads', hwrites', hread', hwrite'⟩ := h.running hold
      -- The other task touches nothing of what this one writes.
      have hapart : ∀ l ∈ G.writes m t, l ∉ G.reads m t' ∧ l ∉ G.writes m t' :=
        hfree t' t hlt' hlt heq (h.not_ordered hold hrun) (h.not_ordered hrun hold)
      exact ⟨m'', hend', hreads', hwrites',
        fun l hl => (hkeep l fun hmem => (hapart l hmem).1 (hreads' l hl)).trans (hread' l hl),
        fun l hl => (hkeep l fun hmem => (hapart l hmem).2 hl).trans (hwrite' l hl)⟩
  · have hnot : l ∉ G.writes m t := by
      intro hmem
      by_cases hle : n ≤ t
      · have hstill := hidle.mp (hafter t hle hlt hmem)
        rw [hrun] at hstill
        cases hstill
      · have hover := hfinished.mp (hbefore t (by omega) hmem)
        rw [hrun] at hover
        cases hover
    dsimp only
    rw [hkeep l hnot]
    exact h.settled hn (fun t' hlt' hmem => hfinished.mp (hbefore t' hlt' hmem))
      fun t' hle hcount hmem => hidle.mp (hafter t' hle hcount hmem)

/-- A task has made its last access. -/
theorem Follows.finish (h : G.Follows m x) (hfree : G.ConflictFree m) {t : ℕ}
    {a : Action Loc Val} (hrun : x.tasks t = .running a) (hdone : a.isDone = true) :
    G.Follows m { x with tasks := Function.update x.tasks t .finished } := by
  have hlt : t < G.count := h.lt_count (by rw [hrun]; exact nofun)
  obtain ⟨m', hend, -, -, -, hwrite⟩ := h.running hrun
  cases a with
  | read | write => cases hdone
  | done =>
  obtain rfl : m' = G.sequential m (t + 1) := hend
  have hidle : ∀ {t' : ℕ}, Function.update x.tasks t .finished t' = .idle ↔
      x.tasks t' = .idle := by
    intro t'
    by_cases heq : t' = t
    · simp [heq, hrun]
    · simp [heq]
  have hgrow : ∀ {t' : ℕ}, x.tasks t' = .finished →
      Function.update x.tasks t .finished t' = .finished := by
    intro t' hfinished
    by_cases heq : t' = t
    · simp [heq]
    · simpa [heq] using hfinished
  refine ⟨fun hstarted => h.lt_count (mt hidle.mpr hstarted), fun hstarted hdep =>
    hgrow (h.finished (mt hidle.mpr hstarted) hdep), fun {t' a'} hrun' => ?_,
    fun {l n} hn hbefore hafter => ?_⟩
  · by_cases heq : t' = t
    · simp [heq] at hrun'
    · exact h.running (by simpa [heq] using hrun')
  · have hbefore' : ∀ t', t' < n → t' ≠ t → l ∈ G.writes m t' → x.tasks t' = .finished := by
      intro t' hlt' hne hmem
      simpa [hne] using hbefore t' hlt' hmem
    have hafter' : ∀ t', n ≤ t' → t' < G.count → l ∈ G.writes m t' → x.tasks t' = .idle :=
      fun t' hle hcount hmem => hidle.mp (hafter t' hle hcount hmem)
    by_cases hmem : l ∈ G.writes m t
    · have hle : t < n := by
        by_contra hge
        have hstill := hafter' t (by omega) hlt hmem
        rw [hrun] at hstill
        cases hstill
      -- A later task that writes the location would have started before this one was done.
      rw [hwrite l hmem, sequential_eq (show t + 1 ≤ n by omega)]
      intro t' htt' ht'n hmem'
      have hover := hbefore' t' ht'n (by omega) hmem'
      rcases ordered_of_touch hfree hlt (by omega) (by omega) hmem' (.inr hmem) with hord | hord
      · have hthis := h.finished_of_ordered hord (by rw [hover]; exact nofun)
        rw [hrun] at hthis
        cases hthis
      · exact absurd hord.lt (by omega)
    · refine h.settled hn (fun t' hlt' hmem' => hbefore' t' hlt' ?_ hmem') hafter'
      rintro rfl
      exact hmem hmem'

/-- An execution in which all tasks have finished ends like the sequential one. -/
theorem Follows.memory_eq (h : G.Follows m x) (hall : ∀ t, t < G.count → x.tasks t = .finished) :
    x.memory = G.sequential m G.count := by
  funext l
  exact h.settled le_rfl (fun t ht _ => hall t ht) fun t hle hlt => absurd hlt (by omega)

end Graph

end TaskGraph
