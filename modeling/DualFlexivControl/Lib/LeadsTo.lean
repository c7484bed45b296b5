/-
Leads-to, for programs that take one step after the other.

`Leads f P Q` says that from every state in `P` the steps of `f` come to a state in `Q`. The
rules are the usual ones; the last one is the argument by a potential: if every round either
arrives or takes a fixed amount off a potential that is never negative, some round arrives.
-/
import Mathlib.Algebra.Order.Archimedean.Basic
import Mathlib.Algebra.Order.Archimedean.Real.Basic
import Mathlib.Tactic.Linarith

set_option autoImplicit false

namespace LeadsTo

variable {σ : Type} {f : σ → σ} {P Q R : σ → Prop}

/-- From every state in `P` the steps of `f` come to a state in `Q`. -/
def Leads (f : σ → σ) (P Q : σ → Prop) : Prop := ∀ s, P s → ∃ n, Q (f^[n] s)

theorem leads_of_imp (h : ∀ s, P s → Q s) : Leads f P Q := fun s hs => ⟨0, h s hs⟩

theorem Leads.trans (h : Leads f P Q) (h' : Leads f Q R) : Leads f P R := by
  intro s hs
  obtain ⟨n, hn⟩ := h s hs
  obtain ⟨m, hm⟩ := h' _ hn
  refine ⟨m + n, ?_⟩
  rwa [Function.iterate_add_apply]

theorem Leads.imp {P' Q' : σ → Prop} (h : Leads f P Q) (hP : ∀ s, P' s → P s)
    (hQ : ∀ s, Q s → Q' s) : Leads f P' Q' :=
  fun s hs => (h s (hP s hs)).imp fun _ hn => hQ _ hn

theorem Leads.or (h : Leads f P R) (h' : Leads f Q R) : Leads f (fun s => P s ∨ Q s) R :=
  fun s hs => hs.elim (h s) (h' s)

/-- The potential argument: a potential that is not negative and falls by a fixed amount per round
runs out, so only what it leads to is left. -/
theorem leads_of_descent (Φ : σ → ℝ) {δ : ℝ} (hδ : 0 < δ) (hpos : ∀ s, P s → 0 ≤ Φ s)
    (hround : ∀ s, P s → ∃ n, Q (f^[n] s) ∨ P (f^[n] s) ∧ Φ (f^[n] s) ≤ Φ s - δ) :
    Leads f P Q := by
  have key : ∀ (k : ℕ) (s : σ), P s → Φ s < k * δ → ∃ n, Q (f^[n] s) := by
    intro k
    induction k with
    | zero =>
      intro s hs hlt
      rw [Nat.cast_zero, zero_mul] at hlt
      exact absurd (hpos s hs) (not_le.2 hlt)
    | succ k ih =>
      intro s hs hlt
      obtain ⟨n, hn⟩ := hround s hs
      rcases hn with hn | ⟨hP, hΦ⟩
      · exact ⟨n, hn⟩
      · have hlt' : Φ (f^[n] s) < k * δ := by
          push_cast at hlt
          linarith
        obtain ⟨m, hm⟩ := ih _ hP hlt'
        refine ⟨m + n, ?_⟩
        rwa [Function.iterate_add_apply]
  intro s hs
  obtain ⟨k, hk⟩ := exists_nat_gt (Φ s / δ)
  exact key k s hs ((div_lt_iff₀ hδ).1 hk)

end LeadsTo
