/-
Programs over typed commands, and the runs they have.

Code whose steps touch the outside world (a store, a remote service, a clock) is
modelled as a tree: it either returns, or asks one command and goes on with the
answer.  Nothing is assumed about the answers, so a statement about every run is a
statement about every behaviour of the world:

* **`Program`** — the tree, a monad, so that a model reads like the code;
* **`Runs`** — `Runs p tr a`: asking the commands of `tr` and getting the answers
  recorded there, `p` returns `a`;
* **`runs_bind`** — a run of a sequence is a run of its first part followed by a run
  of the rest;
* **`Program.interp`** — replacing each command by a program that carries it out,
  and **`runs_interp`**, that this adds no behaviour;
* **`Holds`** — a postcondition on the trace and the result of every run, with its
  rules.
-/
import Mathlib.Data.List.Basic
import Mathlib.Tactic.Common

/-- A program over the commands `Cmd`, each answered by a value of `Res c`. -/
inductive Program (Cmd : Type) (Res : Cmd → Type) (α : Type) : Type where
  | ret (a : α)
  | ask (c : Cmd) (k : Res c → Program Cmd Res α)

/-- One command together with the answer it got. -/
abbrev Event {Cmd : Type} (Res : Cmd → Type) : Type := Σ c : Cmd, Res c

namespace Program

variable {Cmd Cmd' : Type} {Res : Cmd → Type} {Res' : Cmd' → Type} {α β : Type}

/-- Run `p`, then `f` on what it returned. -/
def bind : Program Cmd Res α → (α → Program Cmd Res β) → Program Cmd Res β
  | ret a, f => f a
  | ask c k, f => ask c fun r => (k r).bind f

instance : Monad (Program Cmd Res) where
  pure := ret
  bind := bind

/-- The program that asks one command and returns the answer. -/
def call (c : Cmd) : Program Cmd Res (Res c) := ask c ret

@[simp] theorem pure_def (a : α) : (pure a : Program Cmd Res α) = ret a := rfl

@[simp] theorem ret_bind (a : α) (f : α → Program Cmd Res β) : (ret a >>= f) = f a := rfl

@[simp] theorem ask_bind (c : Cmd) (k : Res c → Program Cmd Res α)
    (f : α → Program Cmd Res β) : (ask c k >>= f) = ask c fun r => k r >>= f := rfl

@[simp] theorem call_bind (c : Cmd) (f : Res c → Program Cmd Res β) :
    (call c >>= f) = ask c f := rfl

theorem bind_assoc {γ : Type} (p : Program Cmd Res α) (f : α → Program Cmd Res β)
    (g : β → Program Cmd Res γ) : (p >>= f) >>= g = p >>= fun a => f a >>= g := by
  induction p with
  | ret a => rfl
  | ask c k ih => exact congrArg (ask c) (funext ih)

/-- Carry out every command of a program by a program over other commands. -/
def interp (h : (c : Cmd) → Program Cmd' Res' (Res c)) :
    Program Cmd Res α → Program Cmd' Res' α
  | ret a => ret a
  | ask c k => h c >>= fun r => (k r).interp h

@[simp] theorem interp_ret (h : (c : Cmd) → Program Cmd' Res' (Res c)) (a : α) :
    (ret a : Program Cmd Res α).interp h = ret a := rfl

/-- The commands of a sequence are carried out in sequence. -/
@[simp] theorem interp_bind (h : (c : Cmd) → Program Cmd' Res' (Res c)) (p : Program Cmd Res α)
    (f : α → Program Cmd Res β) :
    (p >>= f).interp h = p.interp h >>= fun a => (f a).interp h := by
  induction p with
  | ret a => rfl
  | ask c k ih =>
    rw [ask_bind, interp, interp, bind_assoc]
    exact congrArg (h c >>= ·) (funext ih)

/-- A single command is carried out by its program. -/
@[simp] theorem interp_call (h : (c : Cmd) → Program Cmd' Res' (Res c)) (c : Cmd) :
    (call c : Program Cmd Res (Res c)).interp h = h c := by
  rw [call, interp]
  generalize h c = p
  induction p with
  | ret a => rfl
  | ask c k ih => exact congrArg (ask c) (funext ih)

/-- Run a program against a deterministic world with state `σ`, keeping the trace. -/
def exec {σ : Type} (world : σ → (c : Cmd) → Res c × σ) :
    Program Cmd Res α → σ → List (Event Res) × α × σ
  | ret a, s => ([], a, s)
  | ask c k, s =>
    let (r, s') := world s c
    let (tr, a, s'') := (k r).exec world s'
    (⟨c, r⟩ :: tr, a, s'')

end Program

open Program

variable {Cmd Cmd' : Type} {Res : Cmd → Type} {Res' : Cmd' → Type} {α β : Type}

/-! ### Runs -/

/-- `Runs p tr a`: with the answers recorded in `tr`, the program `p` asks exactly
the commands of `tr`, in order, and returns `a`. -/
inductive Runs : Program Cmd Res α → List (Event Res) → α → Prop where
  | ret (a : α) : Runs (.ret a) [] a
  | ask {c : Cmd} {k : Res c → Program Cmd Res α} {tr : List (Event Res)} {a : α}
      (r : Res c) (h : Runs (k r) tr a) : Runs (.ask c k) (⟨c, r⟩ :: tr) a

@[simp] theorem runs_ret {a b : α} {tr : List (Event Res)} :
    Runs (ret a : Program Cmd Res α) tr b ↔ tr = [] ∧ b = a := by
  constructor
  · rintro ⟨⟩
    exact ⟨rfl, rfl⟩
  · rintro ⟨rfl, rfl⟩
    exact .ret _

theorem runs_ask {c : Cmd} {k : Res c → Program Cmd Res α} {tr : List (Event Res)} {a : α} :
    Runs (ask c k) tr a ↔ ∃ r tr', tr = ⟨c, r⟩ :: tr' ∧ Runs (k r) tr' a := by
  constructor
  · rintro ⟨⟩
    exact ⟨_, _, rfl, ‹_›⟩
  · rintro ⟨r, tr', rfl, h⟩
    exact .ask r h

/-- A run that starts by asking a command. -/
theorem runs_call_bind {c : Cmd} {f : Res c → Program Cmd Res β} {tr : List (Event Res)} {b : β} :
    Runs (call c >>= f) tr b ↔ ∃ r t, tr = ⟨c, r⟩ :: t ∧ Runs (f r) t b :=
  runs_ask

/-- A run of a sequence is a run of its first part followed by a run of the rest. -/
theorem runs_bind {p : Program Cmd Res α} {f : α → Program Cmd Res β}
    {tr : List (Event Res)} {b : β} :
    Runs (p >>= f) tr b ↔
      ∃ t₁ a t₂, tr = t₁ ++ t₂ ∧ Runs p t₁ a ∧ Runs (f a) t₂ b := by
  induction p generalizing tr with
  | ret a =>
    rw [ret_bind]
    constructor
    · intro h
      exact ⟨[], a, tr, rfl, .ret a, h⟩
    · rintro ⟨t₁, a', t₂, rfl, h₁, h₂⟩
      obtain ⟨rfl, rfl⟩ := runs_ret.mp h₁
      exact h₂
  | ask c k ih =>
    rw [ask_bind, runs_ask]
    constructor
    · rintro ⟨r, tr', rfl, h⟩
      obtain ⟨t₁, a, t₂, rfl, h₁, h₂⟩ := (ih r).mp h
      exact ⟨⟨c, r⟩ :: t₁, a, t₂, rfl, .ask r h₁, h₂⟩
    · rintro ⟨t₁, a, t₂, rfl, h₁, h₂⟩
      obtain ⟨r, t, rfl, h⟩ := runs_ask.mp h₁
      exact ⟨r, t ++ t₂, rfl, (ih r).mpr ⟨t, a, t₂, rfl, h, h₂⟩⟩

/-- What a deterministic world makes of a program is one of its runs. -/
theorem runs_exec {σ : Type} (world : σ → (c : Cmd) → Res c × σ) :
    ∀ (p : Program Cmd Res α) (s : σ), Runs p (p.exec world s).1 (p.exec world s).2.1 := by
  intro p
  induction p with
  | ret a =>
    intro s
    exact .ret a
  | ask c k ih =>
    intro s
    exact .ask (world s c).1 (ih _ _)

/-! ### Carrying out commands by programs -/

/-- `Expands h tr tr'`: the trace `tr'` carries out the commands of `tr` one after
the other, each by a run of its program. -/
inductive Expands (h : (c : Cmd) → Program Cmd' Res' (Res c)) :
    List (Event Res) → List (Event Res') → Prop where
  | nil : Expands h [] []
  | cons {c : Cmd} {r : Res c} {t : List (Event Res')} {tr : List (Event Res)}
      {tr' : List (Event Res')} (hc : Runs (h c) t r) (hr : Expands h tr tr') :
      Expands h (⟨c, r⟩ :: tr) (t ++ tr')

/-- **Carrying out the commands of a program adds no behaviour**: its runs are the runs
of the program, each command expanded into a run of the program that carries it out. -/
theorem runs_interp {h : (c : Cmd) → Program Cmd' Res' (Res c)} {p : Program Cmd Res α}
    {tr' : List (Event Res')} {a : α} :
    Runs (p.interp h) tr' a ↔ ∃ tr, Runs p tr a ∧ Expands h tr tr' := by
  induction p generalizing tr' with
  | ret b =>
    rw [interp, runs_ret]
    constructor
    · rintro ⟨rfl, rfl⟩
      exact ⟨[], .ret _, .nil⟩
    · rintro ⟨tr, hp, he⟩
      obtain ⟨rfl, rfl⟩ := runs_ret.mp hp
      cases he
      exact ⟨rfl, rfl⟩
  | ask c k ih =>
    rw [interp, runs_bind]
    constructor
    · rintro ⟨t₁, r, t₂, rfl, hc, hk⟩
      obtain ⟨tr, hp, he⟩ := (ih r).mp hk
      exact ⟨⟨c, r⟩ :: tr, .ask r hp, .cons hc he⟩
    · rintro ⟨tr, hp, he⟩
      obtain ⟨r, tr, rfl, hk⟩ := runs_ask.mp hp
      cases he with
      | cons hc hr => exact ⟨_, r, _, rfl, hc, (ih r).mpr ⟨tr, hk, hr⟩⟩

/-! ### Postconditions -/

/-- `Holds p post`: every run of `p` leaves a trace and a result that satisfy `post`. -/
def Holds (p : Program Cmd Res α) (post : List (Event Res) → α → Prop) : Prop :=
  ∀ tr a, Runs p tr a → post tr a

theorem Holds.mono {p : Program Cmd Res α} {post post' : List (Event Res) → α → Prop}
    (h : Holds p post) (himp : ∀ tr a, post tr a → post' tr a) : Holds p post' :=
  fun tr a hr => himp tr a (h tr a hr)

theorem holds_ret {a : α} {post : List (Event Res) → α → Prop} (h : post [] a) :
    Holds (ret a : Program Cmd Res α) post := by
  intro tr b hr
  obtain ⟨rfl, rfl⟩ := runs_ret.mp hr
  exact h

theorem holds_ask {c : Cmd} {k : Res c → Program Cmd Res α}
    {post : List (Event Res) → α → Prop}
    (h : ∀ r, Holds (k r) fun tr a => post (⟨c, r⟩ :: tr) a) : Holds (ask c k) post := by
  intro tr a hr
  obtain ⟨r, tr', rfl, hk⟩ := runs_ask.mp hr
  exact h r tr' a hk

theorem holds_call_bind {c : Cmd} {f : Res c → Program Cmd Res β}
    {post : List (Event Res) → β → Prop}
    (h : ∀ r, Holds (f r) fun tr b => post (⟨c, r⟩ :: tr) b) : Holds (call c >>= f) post :=
  holds_ask h

/-- The rule of sequencing: the second part is proved from what the first one left. -/
theorem holds_bind {p : Program Cmd Res α} {f : α → Program Cmd Res β}
    {mid : List (Event Res) → α → Prop} {post : List (Event Res) → β → Prop}
    (hp : Holds p mid)
    (hf : ∀ t₁ a, mid t₁ a → Holds (f a) fun t₂ b => post (t₁ ++ t₂) b) :
    Holds (p >>= f) post := by
  intro tr b hr
  obtain ⟨t₁, a, t₂, rfl, h₁, h₂⟩ := runs_bind.mp hr
  exact hf t₁ a (hp t₁ a h₁) t₂ b h₂
