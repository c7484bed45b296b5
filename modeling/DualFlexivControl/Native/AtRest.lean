/-
The readers of both languages, on a ring nobody is appending to.

`last`, `ReadAt` and `Latest` are programs that loads can interrupt. Between two appends
there is nothing to interrupt them, and they become functions of the memory: `last` returns
every row it asks for, `ReadAt` succeeds exactly on the indices that are still in the ring,
and `Latest` never retries.

They also never look outside the ring's arrays ([`InRange`]), so that a memory needs to be
known only there.
-/
import DualFlexivControl.Native.Setpoints

set_option autoImplicit false

open Interleave Relation DualFlexivControl.Ring

namespace DualFlexivControl.Native

/-! ## The readers of a ring at rest -/

section Readers

variable {α : Type} {R : RingSpec} {p : Producer α}

/-- Between two appends all counters agree. -/
theorem counters_at_rest (hinv : Inv R p) (hidle : p.pending = []) :
    begun R p = published p ∧ stamped p = published p := by
  have hbounds := hinv.bounds
  have hlength : p.log.length = begun R p := by
    unfold begun
    rw [hidle, if_neg (by simp)]
  have hstamped : stamped p = p.log.length := by
    unfold stamped
    rw [hidle, if_pos (by simp)]
  obtain ⟨B, T, hphase, -⟩ := hinv
  cases hphase with
  | idle _ hlog => omega
  | loaded _ _ _ _ hpend => rw [hidle, append_stores_eq] at hpend; cases hpend
  | dirty _ _ _ _ _ _ hpend => rw [hidle, closing_stores] at hpend; simp at hpend
  | filled _ _ _ _ hpend => rw [hidle] at hpend; cases hpend
  | sealed _ hpend => rw [hidle] at hpend; cases hpend

/-- One pass finds every row it asked for. -/
theorem attempt_at_rest (hinv : Inv R p) (hidle : p.pending = []) {k : ℕ} (hk : 0 < k) :
    ((attempt R k).eval (Ring.view p) = .empty ∧ published p = 0) ∨
    ∃ s, (attempt R k).eval (Ring.view p) = .valid s ∧ Batch R k p p (published p) 0 s ∧
      s.overrun = false := by
  obtain ⟨hbegun, -⟩ := counters_at_rest hinv hidle
  have hcap := R.capacity_pos
  have hspec := attempt_spec hk hinv (@exec_eval _ _ _ _ (Step R) Ring.view p (attempt R k))
  -- nothing moves, so every state of the pass has the same counters
  have hsame : ∀ m, Between (Step R) p m p → published m = published p := by
    rintro m ⟨h₁, h₂⟩
    have hto := (inv_reach hinv h₁).2.published_le
    have hfrom := (inv_reach (inv_reach hinv h₁).1 h₂).2.published_le
    omega
  generalize (attempt R k).eval (Ring.view p) = r at hspec
  match r, hspec with
  | .empty, ⟨m, hm, hzero⟩ => exact .inl ⟨rfl, (hsame m hm) ▸ hzero⟩
  | .valid s, ⟨m, hm, hbatch, hover⟩ => exact .inr ⟨s, rfl, (hsame m hm) ▸ hbatch, hover⟩
  | .torn (some s), ⟨m, start, hm, hstart, hbatch, _⟩ =>
    rw [hsame m hm] at hbatch
    have hasked := asked_le R k (published p)
    have hlt := hbatch.start_lt
    have hcapped : asked R k (published p) ≤ R.capacity := by unfold asked; omega
    have hkept := hbatch.kept (published p - asked R k (published p)) (Nat.le_refl _) (by omega)
      (by omega)
    omega
  | .torn none, ⟨m, hm, hpos, hlap⟩ =>
    rw [hsame m hm] at hlap
    omega

/-- **`last` at rest**: the newest rows, all of them. -/
theorem last_at_rest (hinv : Inv R p) (hidle : p.pending = []) (k : ℤ) :
    ((last R k).eval (Ring.view p)).seq = newest_indices R k.toNat (published p) ∧
      ((last R k).eval (Ring.view p)).overrun = false ∧
      RowsFrom p ((last R k).eval (Ring.view p)) := by
  have hnone : ∀ wc, k.toNat = 0 ∨ wc = 0 → newest_indices R k.toNat wc = [] := by
    intro wc hzero
    have hasked : asked R k.toNat wc = 0 := by unfold asked; omega
    rw [newest_indices, hasked, List.range'_zero]
  unfold last
  by_cases hk : k ≤ 0
  · rw [if_pos hk, hnone _ (.inl (by omega))]
    exact ⟨rfl, rfl, rowsFrom_empty p⟩
  · rw [if_neg hk]
    rcases attempt_at_rest hinv hidle (show 0 < k.toNat by omega) with
      ⟨hempty, hzero⟩ | ⟨s, hvalid, hbatch, hover⟩
    · have heval : (last_loop R k.toNat read_retries none).eval (Ring.view p) =
          Samples.empty := by
        unfold read_retries last_loop
        rw [Prog.eval_bind, hempty]
        rfl
      rw [heval, hnone _ (.inr hzero)]
      exact ⟨rfl, rfl, rowsFrom_empty p⟩
    · have heval : (last_loop R k.toNat read_retries none).eval (Ring.view p) = s := by
        unfold read_retries last_loop
        rw [Prog.eval_bind, hvalid]
        rfl
      rw [heval]
      refine ⟨?_, hover, hbatch.rows⟩
      rw [hbatch.seq_eq, Nat.add_zero, Nat.sub_zero]
      rfl

/-- **`ReadAt` at rest**: it succeeds exactly on the indices still in the ring. -/
theorem read_at_at_rest (hinv : Inv R p) (hidle : p.pending = []) (index : ℤ) (out : List α)
    (ts : ℤ) :
    (((read_at R index out ts).eval (Ring.view p)).ok = true ↔
      ∃ g : ℕ, index = g ∧ g < published p ∧ published p ≤ g + R.capacity) ∧
    ∀ g : ℕ, index = g → ((read_at R index out ts).eval (Ring.view p)).ok = true →
      p.log[g]? = some (((read_at R index out ts).eval (Ring.view p)).out,
        ((read_at R index out ts).eval (Ring.view p)).timestamp) := by
  obtain ⟨hbegun, hstamped⟩ := counters_at_rest hinv hidle
  -- at rest nothing is torn: a row is there, or it is too old or too new
  by_cases hneg : index < 0
  · have heval : (read_at R index out ts).eval (Ring.view p) = ⟨false, out, ts⟩ := by
      unfold read_at
      rw [if_pos hneg]
      rfl
    rw [heval]
    refine ⟨⟨fun h => (by cases h), ?_⟩, fun g _ h => (by cases h)⟩
    rintro ⟨g, rfl, -⟩
    omega
  · obtain ⟨g, rfl⟩ : ∃ g : ℕ, index = g := ⟨index.toNat, by omega⟩
    have hstamp := stamp_iff hinv (R.slot g) g
    rw [hbegun, hstamped] at hstamp
    by_cases hlive : g < published p ∧ published p ≤ g + R.capacity
    · rcases read_at_spec hinv hlive.1
          (@exec_eval _ _ _ _ (Step R) Ring.view p (read_at R g out ts)) with
        ⟨hok, -, hlog⟩ | ⟨-, hlap⟩
      · refine ⟨⟨fun _ => ⟨g, rfl, hlive⟩, fun _ => hok⟩, ?_⟩
        rintro g' hg' -
        rw [Nat.cast_inj] at hg'
        rw [← hg']
        exact hlog
      · omega
    · have hne : p.mem.seq (R.slot g) ≠ (g : ℤ) := fun heq => hlive (hstamp.mp heq).2
      have heval : (read_at R (g : ℤ) out ts).eval (Ring.view p) = ⟨false, out, ts⟩ := by
        unfold read_at
        rw [if_neg hneg, Int.toNat_natCast]
        show (if p.mem.seq (R.slot g) ≠ (g : ℤ) then _ else _ : Reader α (Read α)).eval _ = _
        rw [if_pos hne]
        rfl
      rw [heval]
      refine ⟨⟨fun h => (by cases h), ?_⟩, fun g _ h => (by cases h)⟩
      rintro ⟨g', hg', hlive'⟩
      rw [Nat.cast_inj] at hg'
      rw [← hg'] at hlive'
      exact absurd hlive' hlive

/-- **`Latest` at rest**: the newest sample, if there is one. -/
theorem latest_at_rest (hinv : Inv R p) (hidle : p.pending = []) (out : List α) (ts : ℤ) :
    (Native.latest R out ts).eval (Ring.view p) =
      if published p = 0 then ⟨false, out, ts⟩
      else (read_at R ((published p : ℤ) - 1) out ts).eval (Ring.view p) := by
  have hcap := R.capacity_pos
  show (latest_loop R 4 out ts).eval (Ring.view p) = _
  unfold latest_loop
  show (if published p = 0 then _ else _ : Reader α (Read α)).eval _ = _
  by_cases hzero : published p = 0
  · rw [if_pos hzero, if_pos hzero]
    rfl
  · have hok := ((read_at_at_rest hinv hidle ((published p : ℤ) - 1) out ts).1).mpr
      ⟨published p - 1, by omega, by omega, by omega⟩
    rw [if_neg hzero, if_neg hzero, Prog.eval_bind]
    show (if ((read_at R ((published p : ℤ) - 1) out ts).eval (Ring.view p)).ok = true then _
      else _ : Reader α (Read α)).eval _ = _
    rw [if_pos hok]
    rfl

end Readers

/-! ## The readers stay in the arrays -/

/-- The addresses of a ring's arrays. -/
def InRange (R : RingSpec) : Addr → Prop
  | .write_count => True
  | .seq slot => slot < R.capacity
  | .t_ns slot => slot < R.capacity
  | .data slot j => slot < R.capacity ∧ j < R.dim

section Loads

variable {α : Type} (R : RingSpec)

theorem slot_lt (g : ℕ) : R.slot g < R.capacity := Nat.mod_lt _ R.capacity_pos

theorem loads_load_seq (g : ℕ) : (load_seq (R.slot g) : Reader α ℤ).Loads (InRange R) :=
  loads_get (slot_lt R g)

theorem loads_load_t_ns (g : ℕ) : (load_t_ns (R.slot g) : Reader α ℤ).Loads (InRange R) :=
  loads_get (slot_lt R g)

theorem loads_load_row {slot : ℕ} (h : slot < R.capacity) :
    (load_row R slot : Reader α (List α)).Loads (InRange R) :=
  loads_mapM fun _ hj => loads_get ⟨h, List.mem_range.mp hj⟩

theorem loads_attempt (k : ℕ) : (attempt R k : Reader α (Attempt α)).Loads (InRange R) := by
  unfold attempt
  refine (loads_get trivial).bind fun wc => ?_
  split
  · exact loads_pure _
  · refine (loads_mapM fun g _ => loads_load_seq R g).bind fun s1 => ?_
    refine (loads_mapM fun g _ => loads_load_row R (slot_lt R g)).bind fun data => ?_
    refine (loads_mapM fun g _ => loads_load_t_ns R g).bind fun t_ns => ?_
    exact (loads_mapM fun g _ => loads_load_seq R g).bind fun s2 => loads_pure _

theorem loads_last (k : ℤ) : (last R k : Reader α (Samples α)).Loads (InRange R) := by
  have hloop : ∀ retries (last_ok : Option (Samples α)),
      (last_loop R k.toNat retries last_ok).Loads (InRange R) := by
    intro retries
    induction retries with
    | zero => exact fun last_ok => loads_pure _
    | succ retries ih =>
      intro last_ok
      refine (loads_attempt R k.toNat).bind fun r => ?_
      match r with
      | .empty => exact loads_pure _
      | .valid s => exact loads_pure _
      | .torn (some s) => exact ih _
      | .torn none => exact ih _
  unfold last
  split
  · exact loads_pure _
  · exact hloop _ _

theorem loads_read_at (index : ℤ) (out : List α) (ts : ℤ) :
    (read_at R index out ts).Loads (InRange R) := by
  unfold read_at
  split
  · exact loads_pure _
  · refine (loads_load_seq R _).bind fun first => ?_
    split
    · exact loads_pure _
    · refine (loads_load_row R (slot_lt R _)).bind fun row => ?_
      refine (loads_load_t_ns R _).bind fun t => ?_
      refine (loads_load_seq R _).bind fun second => ?_
      split
      · exact loads_pure _
      · exact loads_pure _

theorem loads_latest (out : List α) (ts : ℤ) :
    (Native.latest R out ts).Loads (InRange R) := by
  have hloop : ∀ retries (out : List α) (ts : ℤ),
      (latest_loop R retries out ts).Loads (InRange R) := by
    intro retries
    induction retries with
    | zero => exact fun out ts => loads_pure _
    | succ retries ih =>
      intro out ts
      refine (loads_get trivial).bind fun count => ?_
      split
      · exact loads_pure _
      · refine (loads_read_at R _ out ts).bind fun r => ?_
        split
        · exact loads_pure _
        · exact ih _ _
  exact hloop 4 out ts

end Loads

end DualFlexivControl.Native
