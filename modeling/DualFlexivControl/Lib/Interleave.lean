/-
Programs of atomic loads, run while somebody else keeps writing.

A reader of shared memory is a *program*: a tree whose inner nodes load one
address and branch on the word they got, and whose leaves are results. The
writer is not a program here but an arbitrary step relation on a state the
addresses can be read off, because all a reader's correctness argument ever uses
about its writer is which steps it can take.

[`Exec`] interleaves the two: between any two loads, before the first and after
the last, the environment takes any number of its own steps. Everything below is
the calculus of that one relation:

* how it composes (`exec_bind`, `exec_load`, `exec_pure`, `exec_mapM`), which is
  how a proof about a whole reader is cut at its `do` lines;
* how it transports along a projection of the environment (`Exec.project`), which
  is how a fact proved against one writer is used inside a larger system;
* two ways of producing executions on concrete inputs (`exec_eval`, with a
  silent environment, and `exec_schedule`, with a given schedule).

Nothing here knows what the addresses are.
-/
import Mathlib.Logic.Relation
import Mathlib.Data.List.Forall2
import Mathlib.Tactic.Common

set_option autoImplicit false

namespace Interleave

open Relation

/-! ## Programs -/

/-- A program over addresses `A`, whose words at address `a` have type `V a`. -/
inductive Prog (A : Type) (V : A → Type) (R : Type) : Type where
  /-- Finished, with a result. -/
  | ret (r : R)
  /-- One atomic load, and what to do with the word. -/
  | load (a : A) (k : V a → Prog A V R)

variable {A : Type} {V : A → Type} {R S : Type}

/-- Sequencing: graft `f` onto the leaves. -/
def Prog.bind : Prog A V R → (R → Prog A V S) → Prog A V S
  | .ret r, f => f r
  | .load a k, f => .load a (fun v => (k v).bind f)

instance : Monad (Prog A V) where
  pure := .ret
  bind := Prog.bind

/-- The one-load program. -/
def Prog.get (a : A) : Prog A V (V a) := .load a .ret

/-- Related lists agree index by index. -/
theorem forall₂_getElem? {ι κ : Type} {Q : ι → κ → Prop} {xs : List ι} {rs : List κ}
    (h : List.Forall₂ Q xs rs) {i : ℕ} {x : ι} (hx : xs[i]? = some x) :
    ∃ r, rs[i]? = some r ∧ Q x r := by
  induction h generalizing i with
  | nil => cases hx
  | cons hxy _ ih =>
    cases i with
    | zero => cases hx; exact ⟨_, rfl, hxy⟩
    | succ i => exact ih hx

theorem Prog.bind_assoc {T : Type} (p : Prog A V R) (f : R → Prog A V S)
    (g : S → Prog A V T) : (p.bind f).bind g = p.bind (fun r => (f r).bind g) := by
  induction p with
  | ret r => rfl
  | load a k ih => simp only [Prog.bind, ih]

theorem Prog.bind_ret (p : Prog A V R) : p.bind .ret = p := by
  induction p with
  | ret r => rfl
  | load a k ih => simp only [Prog.bind, ih]

instance : LawfulMonad (Prog A V) :=
  LawfulMonad.mk' _ (fun p => Prog.bind_ret p) (fun _ _ => rfl)
    (fun p f g => Prog.bind_assoc p f g)

/-- What the program returns when the memory stands still at `m`. -/
def Prog.eval (m : (a : A) → V a) : Prog A V R → R
  | .ret r => r
  | .load a k => (k (m a)).eval m

theorem Prog.eval_bind (m : (a : A) → V a) (p : Prog A V R) (f : R → Prog A V S) :
    (p >>= f).eval m = (f (p.eval m)).eval m := by
  induction p with
  | ret r => rfl
  | load a k ih => exact ih _

/-! ## The addresses a program loads -/

/-- Whatever it is answered, the program loads only addresses with `P`. -/
inductive Prog.Loads (P : A → Prop) : Prog A V R → Prop where
  | ret (r : R) : Loads P (.ret r)
  | load {a : A} {k : V a → Prog A V R} (ha : P a) (hk : ∀ v, Loads P (k v)) :
      Loads P (.load a k)

section Loads

variable {P : A → Prop}

theorem loads_pure (r : R) : Prog.Loads P (pure r : Prog A V R) := .ret r

theorem loads_get {a : A} (ha : P a) : Prog.Loads P (Prog.get a : Prog A V (V a)) :=
  .load ha fun v => .ret v

theorem Prog.Loads.bind {p : Prog A V R} {f : R → Prog A V S} (hp : p.Loads P)
    (hf : ∀ r, (f r).Loads P) : (p >>= f).Loads P := by
  induction hp with
  | ret r => exact hf r
  | load ha _ ih => exact .load ha ih

theorem loads_mapM {ι : Type} {f : ι → Prog A V R} {xs : List ι}
    (hf : ∀ x ∈ xs, (f x).Loads P) : (xs.mapM f).Loads P := by
  induction xs with
  | nil => exact loads_pure _
  | cons x xs ih =>
    rw [List.mapM_cons]
    refine (hf x List.mem_cons_self).bind fun r => ?_
    exact (ih fun y hy => hf y (List.mem_cons_of_mem x hy)).bind fun rs => loads_pure _

/-- Two memories that agree on those addresses give the same result. -/
theorem Prog.Loads.eval_eq {m m' : (a : A) → V a} (h : ∀ a, P a → m a = m' a)
    {p : Prog A V R} (hp : p.Loads P) : p.eval m = p.eval m' := by
  induction hp with
  | ret r => rfl
  | @load a k ha _ ih =>
    show (k (m a)).eval m = (k (m' a)).eval m'
    rw [← h a ha]
    exact ih _

end Loads

/-! ## Executions under interference -/

section Exec

variable {σ : Type} (Step : σ → σ → Prop) (view : σ → (a : A) → V a)

/-- `Exec Step view s p s' r`: started in state `s`, the program `p` can finish
in state `s'` with result `r`, the environment stepping whenever it likes. -/
inductive Exec : σ → Prog A V R → σ → R → Prop where
  | ret (s : σ) (r : R) : Exec s (.ret r) s r
  | load {s s' : σ} {a : A} {k : V a → Prog A V R} {r : R}
      (h : Exec s (k (view s a)) s' r) : Exec s (.load a k) s' r
  | env {s s₁ s' : σ} {p : Prog A V R} {r : R}
      (hs : Step s s₁) (h : Exec s₁ p s' r) : Exec s p s' r

/-- Some state on the way from `s` to `s'`. -/
def Between (s m s' : σ) : Prop := ReflTransGen Step s m ∧ ReflTransGen Step m s'

variable {Step view}

/-- The environment's own steps make up the whole state change. -/
theorem Exec.reach {s s' : σ} {p : Prog A V R} {r : R}
    (h : Exec Step view s p s' r) : ReflTransGen Step s s' := by
  induction h with
  | ret s r => exact .refl
  | load _ ih => exact ih
  | env hs _ ih => exact .head hs ih

/-- The environment may go on before the program starts. -/
theorem Exec.head {s s₁ s' : σ} {p : Prog A V R} {r : R}
    (hs : ReflTransGen Step s s₁) (h : Exec Step view s₁ p s' r) :
    Exec Step view s p s' r := by
  induction hs using ReflTransGen.head_induction_on with
  | refl => exact h
  | head hstep _ ih => exact .env hstep ih

/-- The environment may go on after the program has finished. -/
theorem Exec.tail {s s' s₂ : σ} {p : Prog A V R} {r : R}
    (h : Exec Step view s p s' r) (hs : ReflTransGen Step s' s₂) :
    Exec Step view s p s₂ r := by
  induction h with
  | ret s r => exact Exec.head hs (.ret _ _)
  | load _ ih => exact .load (ih hs)
  | env hstep _ ih => exact .env hstep (ih hs)

/-- A finished program: only the environment moves, and the result is the one that was returned. -/
theorem exec_pure {s s' : σ} {r r' : R} :
    Exec Step view s (pure r' : Prog A V R) s' r ↔ ReflTransGen Step s s' ∧ r = r' := by
  constructor
  · intro h
    refine ⟨h.reach, ?_⟩
    -- the induction needs the program as a variable; only the environment can step
    generalize hp : (pure r' : Prog A V R) = p at h
    induction h with
    | ret s r => cases hp; rfl
    | load _ _ => cases hp
    | env _ _ ih => exact ih hp
  · rintro ⟨hs, rfl⟩
    exact Exec.head hs (.ret _ _)

/-- Sequencing splits an execution at the point where the first part returns. -/
theorem exec_bind {s s' : σ} {p : Prog A V R} {f : R → Prog A V S} {r : S} :
    Exec Step view s (p >>= f) s' r ↔
      ∃ m a, Exec Step view s p m a ∧ Exec Step view m (f a) s' r := by
  constructor
  · intro h
    -- the induction is on the execution of the whole; `p` shrinks with every load
    generalize hq : p >>= f = q at h
    induction h generalizing p with
    | ret s r =>
      cases p with
      | ret a => exact ⟨s, a, .ret _ _, by rw [show f a = _ from hq]; exact .ret _ _⟩
      | load a k => cases hq
    | @load s s' b k r h ih =>
      cases p with
      | ret a => exact ⟨s, a, .ret _ _, by rw [show f a = _ from hq]; exact .load h⟩
      | load a k' =>
        cases hq
        obtain ⟨m, x, hx, hf⟩ := ih rfl
        exact ⟨m, x, .load hx, hf⟩
    | env hs _ ih =>
      obtain ⟨m, x, hx, hf⟩ := ih hq
      exact ⟨m, x, .env hs hx, hf⟩
  · rintro ⟨m, a, hp, hf⟩
    induction hp with
    | ret s r => exact hf
    | load _ ih => exact .load (ih hf)
    | env hs _ ih => exact .env hs (ih hf)

/-- One load returns the word of some state on the way, and the environment moves before and after
it. -/
theorem exec_load {s s' : σ} {a : A} {v : V a} :
    Exec Step view s (Prog.get a) s' v ↔ ∃ m, Between Step s m s' ∧ v = view m a := by
  constructor
  · intro h
    generalize hp : (Prog.get a : Prog A V (V a)) = p at h
    induction h with
    | ret s r => cases hp
    | @load s s' b k r h _ =>
      cases hp
      obtain ⟨hs, hr⟩ := exec_pure.mp h
      exact ⟨s, ⟨.refl, hs⟩, hr⟩
    | env hs _ ih =>
      obtain ⟨m, ⟨h₁, h₂⟩, hv⟩ := ih hp
      exact ⟨m, ⟨.head hs h₁, h₂⟩, hv⟩
  · rintro ⟨m, ⟨h₁, h₂⟩, rfl⟩
    exact Exec.head h₁ (.load (exec_pure.mpr ⟨h₂, rfl⟩))

/-- A list of sub-programs in sequence: each result comes from an execution of
its own, somewhere on the way. -/
theorem exec_mapM {ι : Type} {f : ι → Prog A V R} {xs : List ι} {s s' : σ} {rs : List R}
    (h : Exec Step view s (xs.mapM f) s' rs) :
    List.Forall₂ (fun x r => ∃ m m', ReflTransGen Step s m ∧ Exec Step view m (f x) m' r ∧
      ReflTransGen Step m' s') xs rs := by
  induction xs generalizing s s' rs with
  | nil =>
    rw [List.mapM_nil] at h
    obtain ⟨_, rfl⟩ := exec_pure.mp h
    exact .nil
  | cons x xs ih =>
    rw [List.mapM_cons] at h
    obtain ⟨m, r, hx, h⟩ := exec_bind.mp h
    obtain ⟨m', rs', hxs, h⟩ := exec_bind.mp h
    obtain ⟨hend, rfl⟩ := exec_pure.mp h
    -- the executions of the rest start after the first one's
    refine .cons ⟨s, m, .refl, hx, hxs.reach.trans hend⟩ ?_
    refine (ih hxs).imp ?_
    rintro y z ⟨n, n', h₁, h₂, h₃⟩
    exact ⟨n, n', hx.reach.trans h₁, h₂, h₃.trans hend⟩

/-- With a silent environment a program returns its value on the standing
memory, and the state does not move. -/
theorem exec_eval (s : σ) (p : Prog A V R) : Exec Step view s p s (p.eval (view s)) := by
  induction p with
  | ret r => exact .ret _ _
  | load a k ih => exact .load (ih _)

/-- An execution against one environment is an execution against any other it
projects to, as long as the program sees the same words. -/
theorem Exec.project {τ : Type} {Step' : τ → τ → Prop} {view' : τ → (a : A) → V a}
    (f : σ → τ) (hstep : ∀ s s', Step s s' → ReflTransGen Step' (f s) (f s'))
    (hview : ∀ s, view s = view' (f s)) {s s' : σ} {p : Prog A V R} {r : R}
    (h : Exec Step view s p s' r) : Exec Step' view' (f s) p (f s') r := by
  induction h with
  | ret s r => exact .ret _ _
  | load _ ih => exact .load (by rw [← hview]; exact ih)
  | env hs _ ih => exact Exec.head (hstep _ _ hs) ih

end Exec

/-! ## Running a given schedule

For a concrete interleaving it is enough to say which environment actions happen
before each load; the rest is computation. -/

section Schedule

variable {σ Act : Type} (step : Act → σ → Option σ) (view : σ → (a : A) → V a)

/-- The environment steps of a deterministic, action-labelled system. -/
def ActStep (s s' : σ) : Prop := ∃ a, step a s = some s'

/-- Take the given actions in order. -/
def runActs : List Act → σ → Option σ
  | [], s => some s
  | a :: as, s => (step a s).bind (runActs as)

/-- Run the program, taking the next group of actions before each load. -/
def Prog.schedule : Prog A V R → List (List Act) → σ → Option (σ × R)
  | .ret r, _, s => some (s, r)
  | .load a k, [], s => (k (view s a)).schedule [] s
  | .load a k, g :: gs, s =>
    (runActs step g s).bind fun s' => (k (view s' a)).schedule gs s'

variable {step view}

theorem runActs_reach {as : List Act} {s s' : σ} (h : runActs step as s = some s') :
    ReflTransGen (ActStep step) s s' := by
  induction as generalizing s with
  | nil =>
    simp only [runActs, Option.some.injEq] at h
    exact h ▸ .refl
  | cons a as ih =>
    simp only [runActs, Option.bind_eq_some_iff] at h
    obtain ⟨s₁, h₁, h₂⟩ := h
    exact .head ⟨a, h₁⟩ (ih h₂)

/-- A schedule that runs to the end is an execution, so concrete interleavings are found by
evaluation. -/
theorem exec_schedule {p : Prog A V R} {gs : List (List Act)} {s s' : σ} {r : R}
    (h : p.schedule step view gs s = some (s', r)) : Exec (ActStep step) view s p s' r := by
  induction p generalizing gs s with
  | ret r =>
    simp only [Prog.schedule, Option.some.injEq, Prod.mk.injEq] at h
    obtain ⟨rfl, rfl⟩ := h
    exact .ret _ _
  | load a k ih =>
    cases gs with
    | nil => exact .load (ih _ h)
    | cons g gs =>
      simp only [Prog.schedule, Option.bind_eq_some_iff] at h
      obtain ⟨s₁, h₁, h₂⟩ := h
      exact Exec.head (runActs_reach h₁) (.load (ih _ h₂))

/-- The same from an observation `f` of the final state, which is what can be
compared on concrete inputs. -/
theorem exec_schedule_observe {β : Type} {p : Prog A V R} {gs : List (List Act)} {s : σ}
    {r : R} (f : σ → β) {b : β}
    (h : (p.schedule step view gs s).map (fun x => (f x.1, x.2)) = some (b, r)) :
    ∃ s', Exec (ActStep step) view s p s' r ∧ f s' = b := by
  obtain ⟨⟨s', r'⟩, hs, heq⟩ := Option.map_eq_some_iff.mp h
  obtain ⟨rfl, rfl⟩ := Prod.mk.inj heq
  exact ⟨s', exec_schedule hs, rfl⟩

end Schedule

end Interleave
