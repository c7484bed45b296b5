/-
`Ring::ReadAt` and `Ring::Latest` of the native controller.

The C++ reader shares the segment with the Python one but not its code. Its output
parameters are plain memory: `ReadAt` fills `out` between the two stamp checks, so a
read that fails at the second one has already changed it, and `Latest` leaves the
leavings of its last failed pass behind. Both parameters are therefore threaded
through here, in and out.

[`latest_spec`] is what a caller can rely on: success means one completely appended
sample with its own timestamp; failure means that nothing was ever published or that
the writer went once round the ring (less one) under each of the four passes.
Nothing is said about `out` after a failure, because nothing is true.
-/
import DualFlexivControl.Streams.Last

set_option autoImplicit false

open Interleave Relation DualFlexivControl.Ring

namespace DualFlexivControl.Native

variable {α : Type}

/-! ## The reader -/

/-- A return value with the two output parameters. -/
structure Read (α : Type) where
  ok : Bool
  out : List α
  timestamp : ℤ
  deriving DecidableEq

/-- `Ring::ReadAt`. -/
def read_at (R : RingSpec) (index : ℤ) (out : List α) (timestamp : ℤ) :
    Reader α (Read α) :=
  if index < 0 then
    return ⟨false, out, timestamp⟩
  else do
    let slot := R.slot index.toNat
    let first ← load_seq slot
    if first ≠ index then
      return ⟨false, out, timestamp⟩
    else
      let row ← load_row R slot
      let ts ← load_t_ns slot
      let second ← load_seq slot
      if second ≠ index then
        return ⟨false, row, timestamp⟩
      else
        return ⟨true, row, ts⟩

/-- The retry loop of `Ring::Latest`. -/
def latest_loop (R : RingSpec) : ℕ → List α → ℤ → Reader α (Read α)
  | 0, out, timestamp => return ⟨false, out, timestamp⟩
  | retries + 1, out, timestamp => do
    let count ← load_write_count
    if count = 0 then
      return ⟨false, out, timestamp⟩
    else
      let r ← read_at R (count - 1) out timestamp
      if r.ok then return r else latest_loop R retries r.out r.timestamp

/-- `Ring::Latest`, with its four passes. -/
def latest (R : RingSpec) (out : List α) (timestamp : ℤ) : Reader α (Read α) :=
  latest_loop R 4 out timestamp

/-! ## What it returns -/

/-- A successful read is one completely appended sample of the ring. -/
def Appended (R : RingSpec) (p : Producer α) (out : List α) (timestamp : ℤ) : Prop :=
  out.length = R.dim ∧ ∃ g, g < published p ∧ p.log[g]? = some (out, timestamp)

theorem Appended.mono {R : RingSpec} {p p' : Producer α} {out : List α} {timestamp : ℤ}
    (h : Appended R p out timestamp) (hgrow : Grows R p p') : Appended R p' out timestamp := by
  obtain ⟨hlen, g, hg, hlog⟩ := h
  exact ⟨hlen, g, hg.trans_le hgrow.published_le, getElem?_of_grows hgrow.log_grows hlog⟩

/-- A read between `p` and `p'` that returned the newest sample of some moment in
between. -/
def NewestRead (R : RingSpec) (p p' : Producer α) (out : List α) (timestamp : ℤ) : Prop :=
  out.length = R.dim ∧ ∃ m, Between (Step R) p m p' ∧ 0 < published m ∧
    p'.log[published m - 1]? = some (out, timestamp)

theorem NewestRead.appended {R : RingSpec} {p p' : Producer α} {out : List α} {timestamp : ℤ}
    (hinv : Inv R p) (h : NewestRead R p p' out timestamp) : Appended R p' out timestamp := by
  obtain ⟨hlen, m, ⟨hm, hm'⟩, hpos, hlog⟩ := h
  have hle := (inv_reach (inv_reach hinv hm).1 hm').2.published_le
  exact ⟨hlen, published m - 1, by omega, hlog⟩

/-- `ReadAt` of a published index: the sample, or a slot being recycled. -/
theorem read_at_spec {R : RingSpec} {p p' : Producer α} {g : ℕ} {out : List α} {ts : ℤ}
    {r : Read α} (hinv : Inv R p) (hpub : g < published p)
    (h : Exec (Step R) view p (read_at R g out ts) p' r) :
    (r.ok = true ∧ r.out.length = R.dim ∧ p'.log[g]? = some (r.out, r.timestamp)) ∨
      (r.ok = false ∧ g + R.capacity < begun R p') := by
  unfold read_at at h
  rw [if_neg (by omega), Int.toNat_natCast] at h
  obtain ⟨a, first, hfirst, h⟩ := exec_bind.mp h
  obtain ⟨m₁, ⟨hm₁, hm₁'⟩, rfl⟩ := exec_load_seq.mp hfirst
  obtain ⟨hinv₁, hgrow₁⟩ := inv_reach hinv hm₁
  have hpub₁ : g < published m₁ := hpub.trans_le hgrow₁.published_le
  -- a stamp that is not `g` at some state on the way settles the failing branches
  have hfail : ∀ l, ReflTransGen (Step R) m₁ l → ReflTransGen (Step R) l p' →
      l.mem.seq (R.slot g) ≠ (g : ℤ) → g + R.capacity < begun R p' := by
    intro l hl hl' hne
    obtain ⟨hinvl, hgrowl⟩ := inv_reach hinv₁ hl
    have hrecycled := recycled_of_stamp_ne hinvl (hpub₁.trans_le hgrowl.published_le) hne
    exact hrecycled.trans_le (inv_reach hinvl hl').2.begun_le
  by_cases hs1 : m₁.mem.seq (R.slot g) = (g : ℤ)
  · rw [if_neg (not_not_intro hs1)] at h
    obtain ⟨b, row, hrow, h⟩ := exec_bind.mp h
    obtain ⟨c, t, ht, h⟩ := exec_bind.mp h
    obtain ⟨d, second, hsecond, h⟩ := exec_bind.mp h
    obtain ⟨m₂, ⟨hm₂, hm₂'⟩, rfl⟩ := exec_load_seq.mp hsecond
    have hreach₂ : ReflTransGen (Step R) m₁ m₂ :=
      hm₁'.trans (hrow.reach.trans (ht.reach.trans hm₂))
    by_cases hs2 : m₂.mem.seq (R.slot g) = (g : ℤ)
    · rw [if_neg (not_not_intro hs2)] at h
      obtain ⟨hend, rfl⟩ := exec_pure.mp h
      obtain ⟨sample, hlog, -⟩ := holds_of_stamp hinv₁ hs1
      -- between two equal stamps the slot holds the one sample
      have hholds : ∀ l, Between (Step R) m₁ l m₂ → Holds R l.mem (R.slot g) sample := by
        intro l hl
        obtain ⟨sample', hlog', hholds⟩ := row_between hinv₁ hl.1 hl.2 hs1 hs2
        rw [hlog] at hlog'
        cases hlog'
        exact hholds
      obtain ⟨mt, ⟨hmt, hmt'⟩, rfl⟩ := exec_load_t_ns.mp ht
      have hrow_eq : row = sample.1 := load_row_spec hrow fun l hl =>
        hholds l ⟨hm₁'.trans hl.1, (hl.2.trans ht.reach).trans hm₂⟩
      have ht_eq : mt.mem.t_ns (R.slot g) = sample.2 :=
        (hholds mt ⟨hm₁'.trans (hrow.reach.trans hmt), hmt'.trans hm₂⟩).1
      refine .inl ⟨rfl, ?_, ?_⟩
      · rw [hrow_eq]
        exact (hholds m₁ ⟨.refl, hreach₂⟩).2.1
      · rw [hrow_eq, ht_eq]
        exact getElem?_of_grows
          (inv_reach hinv₁ (hreach₂.trans (hm₂'.trans hend))).2.log_grows hlog
    · rw [if_pos hs2] at h
      obtain ⟨hend, rfl⟩ := exec_pure.mp h
      exact .inr ⟨rfl, hfail m₂ hreach₂ (hm₂'.trans hend) hs2⟩
  · rw [if_pos hs1] at h
    obtain ⟨hend, rfl⟩ := exec_pure.mp h
    exact .inr ⟨rfl, hfail m₁ .refl (hm₁'.trans hend) hs1⟩

/-- The retry loop. The induction is on the passes left; each failed one pushes the
writer a lap (less one) further. -/
theorem latest_loop_spec {R : RingSpec} (retries : ℕ) {p p' : Producer α} {out : List α}
    {ts : ℤ} {r : Read α} (hinv : Inv R p)
    (h : Exec (Step R) view p (latest_loop R retries out ts) p' r) :
    (r.ok = true ∧ NewestRead R p p' r.out r.timestamp) ∨ (r.ok = false ∧ (published p = 0 ∨
      retries = 0 ∨ published p + retries * (R.capacity - 1) < begun R p')) := by
  induction retries generalizing p out ts with
  | zero =>
    obtain ⟨-, rfl⟩ := exec_pure.mp h
    exact .inr ⟨rfl, .inr (.inl rfl)⟩
  | succ retries ih =>
    obtain ⟨m₀, count, hcount, h⟩ := exec_bind.mp h
    obtain ⟨m, ⟨hm, hm₀⟩, rfl⟩ := exec_load_write_count.mp hcount
    obtain ⟨hinvm, hgrowm⟩ := inv_reach hinv hm
    obtain ⟨hinv₀, hgrow₀⟩ := inv_reach hinvm hm₀
    have hpm := hgrowm.published_le
    have hpub₀ := hgrow₀.published_le
    -- nothing published, nothing read
    by_cases hzero : published m = 0
    · rw [if_pos hzero] at h
      obtain ⟨-, rfl⟩ := exec_pure.mp h
      exact .inr ⟨rfl, .inl (by omega)⟩
    rw [if_neg hzero] at h
    obtain ⟨q, r₁, hr₁, h⟩ := exec_bind.mp h
    obtain ⟨hinvq, hgrowq⟩ := inv_reach hinv₀ hr₁.reach
    have hindex : ((published m : ℤ) - 1) = ((published m - 1 : ℕ) : ℤ) := by omega
    rw [hindex] at hr₁
    -- the row is whole, or it was lapped while it was copied and the next try counts
    rcases read_at_spec hinv₀ (by omega) hr₁ with ⟨hok, hlen, hlog⟩ | ⟨hok, hB⟩
    · rw [if_pos hok] at h
      obtain ⟨hend, rfl⟩ := exec_pure.mp h
      refine .inl ⟨hok, hlen, m, ⟨hm, hm₀.trans (hr₁.reach.trans hend)⟩, by omega, ?_⟩
      exact getElem?_of_grows (inv_reach hinvq hend).2.log_grows hlog
    · rw [if_neg (by rw [hok]; decide)] at h
      have hpubq := hgrowq.published_le
      rcases ih hinvq h with ⟨hok', hlen, m', ⟨h₁, h₂⟩, hrest⟩ | ⟨hfail, hlap⟩
      · exact .inl ⟨hok', hlen, m', ⟨(hm.trans hm₀).trans (hr₁.reach.trans h₁), h₂⟩, hrest⟩
      · refine .inr ⟨hfail, .inr (.inr ?_)⟩
        have hcap := R.capacity_pos
        have hbq := hinvq.bounds.2.2.1
        have hmono := (inv_reach hinvq h.reach).2.begun_le
        rw [Nat.succ_mul]
        rcases hlap with hq | rfl | hlap
        · omega
        · omega
        · omega

/-- **`Latest`.** -/
theorem latest_spec {R : RingSpec} {p p' : Producer α} {out : List α} {ts : ℤ} {r : Read α}
    (hinv : Inv R p) (h : Exec (Step R) view p (latest R out ts) p' r) :
    (r.ok = true ∧ NewestRead R p p' r.out r.timestamp) ∨ (r.ok = false ∧
      (published p = 0 ∨ published p + 4 * (R.capacity - 1) < begun R p')) := by
  rcases latest_loop_spec 4 hinv h with hdone | ⟨hfail, hzero | hnone | hlap⟩
  · exact .inl hdone
  · exact .inr ⟨hfail, .inl hzero⟩
  · exact absurd hnone (by decide)
  · exact .inr ⟨hfail, .inr hlap⟩

end DualFlexivControl.Native
