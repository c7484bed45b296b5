/-
`SharedRingBuffer.last` under any interleaving with the producer.

One pass of the retry loop copies the newest rows between two reads of their
stamps. [`attempt_spec`] says what that pass can know afterwards: a row whose two
stamps agree with its index is that append's sample, and a row that failed has
begun to be recycled by the time the pass is over. Everything `last` promises
follows by induction over the passes ([`last_spec`]), and so does the price of
promising nothing: when every pass loses even the newest row, the producer has
gone round the ring once per pass.
-/
import DualFlexivControl.Streams.Seqlock
import Mathlib.Algebra.Ring.Int.Defs

set_option autoImplicit false

namespace DualFlexivControl.Ring

open Interleave Relation

variable {α : Type}

/-! ## Picking the suffix -/

/-- The bad rows are those whose stamps did not check. -/
theorem mem_bad_rows {ok : List Bool} {i : ℕ} :
    i ∈ bad_rows ok ↔ ok[i]? = some false := by
  simp only [bad_rows, List.mem_filter, List.mem_range, beq_iff_eq]
  constructor
  · exact fun h => h.2
  · exact fun h => ⟨(List.getElem?_eq_some_iff.mp h).1, h⟩

/-- The last bad row is the largest one. -/
theorem bad_rows_le_getLast {ok : List Bool} {b i : ℕ}
    (hb : (bad_rows ok).getLast? = some b) (hi : i ∈ bad_rows ok) : i ≤ b := by
  have hsorted : (bad_rows ok).Pairwise (· < ·) := List.pairwise_lt_range.filter _
  obtain ⟨ys, hys⟩ := List.getLast?_eq_some_iff.mp hb
  rw [hys] at hsorted hi
  rcases List.mem_append.mp hi with h | h
  · exact Nat.le_of_lt ((List.pairwise_append.mp hsorted).2.2 i h b (List.mem_singleton.mpr rfl))
  · exact Nat.le_of_eq (List.mem_singleton.mp h)

/-- From the salvage start on, every row validated, because the start is one behind the last row
that did not. -/
theorem ok_of_salvage_le {ok : List Bool} {i : ℕ} (hstart : salvage_start ok ≤ i)
    (hi : i < ok.length) : ok[i]? = some true := by
  rw [List.getElem?_eq_getElem hi]
  by_contra hcon
  have hfalse : ok[i]? = some false := by
    rw [List.getElem?_eq_getElem hi]
    simpa using hcon
  have hmem := mem_bad_rows.mpr hfalse
  unfold salvage_start at hstart
  split at hstart
  · -- row `i` would be a bad row beyond the last one
    rename_i b hb
    have := bad_rows_le_getLast hb hmem
    omega
  · rename_i hnone
    rw [List.getLast?_eq_none_iff] at hnone
    rw [hnone] at hmem
    cases hmem

/-- Just before the salvage start sits a row that failed. -/
theorem bad_of_salvage_pos {ok : List Bool} (hpos : 0 < salvage_start ok) :
    ok[salvage_start ok - 1]? = some false := by
  unfold salvage_start at hpos ⊢
  split at hpos
  · rename_i b hb
    exact mem_bad_rows.mp (List.mem_of_getLast? hb)
  · exact absurd hpos (Nat.lt_irrefl _)

/-- A batch with a bad row has a positive salvage start. -/
theorem salvage_pos_of_not_all {ok : List Bool} (h : ¬ ok.all id = true) :
    0 < salvage_start ok := by
  by_contra hcon
  refine h (List.all_eq_true.mpr fun b hb => ?_)
  obtain ⟨i, hi, rfl⟩ := List.getElem_of_mem hb
  have := @ok_of_salvage_le ok i (by omega) hi
  rw [List.getElem?_eq_getElem hi] at this
  exact Option.some.inj this

/-! ## One pass -/

/-- Every returned row is the sample of the append it is attributed to. -/
structure RowsFrom (p : Producer α) (s : Samples α) : Prop where
  data_length : s.data.length = s.seq.length
  t_ns_length : s.t_ns.length = s.seq.length
  row : ∀ (i g : ℕ), s.seq[i]? = some g → ∃ sample, p.log[g]? = some sample ∧
    s.data[i]? = some sample.1 ∧ s.t_ns[i]? = some sample.2

/-- No more is asked for than has been published. -/
theorem asked_le (R : RingSpec) (k wc : ℕ) : asked R k wc ≤ wc := Nat.min_le_right _ _

/-- Something is asked for as soon as something was published. -/
theorem asked_pos {R : RingSpec} {k wc : ℕ} (hk : 0 < k) (hwc : 0 < wc) :
    0 < asked R k wc := by
  have := R.capacity_pos
  unfold asked
  omega

/-- There is an index for each of the rows that are asked for. -/
theorem length_newest_indices (R : RingSpec) (k wc : ℕ) :
    (newest_indices R k wc).length = asked R k wc := List.length_range'

/-- The indices run up to the write count, the newest last. -/
theorem newest_indices_getElem? (R : RingSpec) (k wc : ℕ) {i : ℕ} (hi : i < asked R k wc) :
    (newest_indices R k wc)[i]? = some (wc - asked R k wc + i) := by
  rw [newest_indices, List.getElem?_range' hi, Nat.one_mul]

/-- A batch read between `p` and `p'` at write count `wc`, from row `start` on. A row
in it had not begun to be recycled when the call started (`fresh`); conversely a row
that has not begun to be recycled by the end of the call is in it (`kept`). -/
structure Batch (R : RingSpec) (k : ℕ) (p p' : Producer α) (wc start : ℕ) (s : Samples α) :
    Prop where
  start_lt : start < asked R k wc
  seq_eq : s.seq = List.range' (wc - asked R k wc + start) (asked R k wc - start)
  rows : RowsFrom p' s
  fresh : ∀ g ∈ s.seq, begun R p ≤ g + R.capacity
  kept : ∀ g, wc - asked R k wc ≤ g → g < wc → begun R p' ≤ g + R.capacity →
    wc - asked R k wc + start ≤ g

/-- Samples of the log stay samples of a log that has grown. -/
theorem RowsFrom.mono {p p' : Producer α} {s : Samples α} (h : RowsFrom p s)
    (hlog : p.log <+: p'.log) : RowsFrom p' s := by
  refine ⟨h.data_length, h.t_ns_length, fun i g hg => ?_⟩
  obtain ⟨sample, hs, hrest⟩ := h.row i g hg
  exact ⟨sample, getElem?_of_grows hlog hs, hrest⟩

/-- A batch read within a stretch of the producer's run was read within every longer one. -/
theorem Batch.mono {R : RingSpec} {k wc start : ℕ} {q p p' q' : Producer α} {s : Samples α}
    (h : Batch R k p p' wc start s) (hhead : Grows R q p) (htail : Grows R p' q') :
    Batch R k q q' wc start s :=
  ⟨h.start_lt, h.seq_eq, h.rows.mono htail.log_grows,
    fun g hg => hhead.begun_le.trans (h.fresh g hg),
    fun g hlo hhi hB => h.kept g hlo hhi (htail.begun_le.trans hB)⟩

/-- An empty batch returns no row that could be wrong. -/
theorem rowsFrom_empty (p : Producer α) : RowsFrom p (Samples.empty : Samples α) :=
  ⟨rfl, rfl, fun i g h => by cases h⟩

section Loads

variable {R : RingSpec} {p p' : Producer α}

/-- Loading the write count gives what was published at some moment of the call. -/
theorem exec_load_write_count {v : ℕ} :
    Exec (Step R) view p load_write_count p' v ↔
      ∃ m, Between (Step R) p m p' ∧ v = published m := exec_load

/-- Loading a slot's sequence number gives what stood there at some moment of the call. -/
theorem exec_load_seq {slot : ℕ} {v : ℤ} :
    Exec (Step R) view p (load_seq slot) p' v ↔
      ∃ m, Between (Step R) p m p' ∧ v = m.mem.seq slot := exec_load

/-- Loading a slot's time stamp gives what stood there at some moment of the call. -/
theorem exec_load_t_ns {slot : ℕ} {v : ℤ} :
    Exec (Step R) view p (load_t_ns slot) p' v ↔
      ∃ m, Between (Step R) p m p' ∧ v = m.mem.t_ns slot := exec_load

/-- Loading a word of a slot's payload gives what stood there at some moment, each word at its own.
-/
theorem exec_load_data {slot j : ℕ} {v : α} :
    Exec (Step R) view p (load_data slot j) p' v ↔
      ∃ m, Between (Step R) p m p' ∧ v = m.mem.data slot j := exec_load

/-- A row copied while its slot holds `sample` throughout is `sample`'s payload. -/
theorem load_row_spec {slot : ℕ} {row : List α} {sample : List α × ℤ}
    (h : Exec (Step R) view p (load_row R slot) p' row)
    (hholds : ∀ m, Between (Step R) p m p' → Holds R m.mem slot sample) :
    row = sample.1 := by
  have hall := exec_mapM h
  have hdim : sample.1.length = R.dim := (hholds p ⟨.refl, h.reach⟩).2.1
  have hlen : row.length = R.dim := by rw [← hall.length_eq, List.length_range]
  refine List.ext_getElem? fun j => ?_
  by_cases hj : j < R.dim
  · obtain ⟨x, hx, m, m', h₁, hload, h₂⟩ :=
      forall₂_getElem? hall (List.getElem?_range hj)
    obtain ⟨l, ⟨h₃, h₄⟩, rfl⟩ := exec_load_data.mp hload
    have hjs : j < sample.1.length := by omega
    have hcell := (hholds l ⟨h₁.trans h₃, h₄.trans h₂⟩).2.2 j _ (List.getElem?_eq_getElem hjs)
    rw [hx, hcell, List.getElem?_eq_getElem hjs]
  · rw [List.getElem?_eq_none (by omega), List.getElem?_eq_none (by omega)]

end Loads

/-- The copies one pass makes, and the states they were made between: the stamps
first, then payload and timestamps, then the stamps again. -/
structure Copies (R : RingSpec) (m m' : Producer α) (gidx : List ℕ) (s1 s2 : List ℤ)
    (data : List (List α)) (t_ns : List ℤ) : Prop where
  s1_length : s1.length = gidx.length
  s2_length : s2.length = gidx.length
  data_length : data.length = gidx.length
  t_ns_length : t_ns.length = gidx.length
  /-- The stamps of a row, read at `m₁` and `m₂`. -/
  stamps : ∀ (i g : ℕ), gidx[i]? = some g → ∃ m₁ m₂ : Producer α, ReflTransGen (Step R) m m₁ ∧
    ReflTransGen (Step R) m₁ m₂ ∧ ReflTransGen (Step R) m₂ m' ∧
    s1[i]? = some (m₁.mem.seq (R.slot g)) ∧ s2[i]? = some (m₂.mem.seq (R.slot g)) ∧
    -- a sample in the slot from `m₁` to `m₂` is what was copied
    ∀ sample, (∀ l, Between (Step R) m₁ l m₂ → Holds R l.mem (R.slot g) sample) →
      data[i]? = some sample.1 ∧ t_ns[i]? = some sample.2

/-- The four copying lines of a pass produce `Copies`: first stamps, payloads, times and second
stamps, each word loaded at some moment in between. -/
theorem copies_of_exec {R : RingSpec} {m₀ a b c d : Producer α} {gidx : List ℕ}
    {s1 s2 : List ℤ} {data : List (List α)} {t_ns : List ℤ}
    (h1 : Exec (Step R) view m₀ (gidx.mapM (fun g => load_seq (R.slot g))) a s1)
    (hd : Exec (Step R) view a (gidx.mapM (fun g => load_row R (R.slot g))) b data)
    (ht : Exec (Step R) view b (gidx.mapM (fun g => load_t_ns (R.slot g))) c t_ns)
    (h2 : Exec (Step R) view c (gidx.mapM (fun g => load_seq (R.slot g))) d s2) :
    Copies R m₀ d gidx s1 s2 data t_ns := by
  have f1 := exec_mapM h1
  have fd := exec_mapM hd
  have ft := exec_mapM ht
  have f2 := exec_mapM h2
  refine ⟨f1.length_eq.symm, f2.length_eq.symm, fd.length_eq.symm, ft.length_eq.symm, ?_⟩
  intro i g hg
  obtain ⟨v1, hv1, x, x', hx, hload1, hx'⟩ := forall₂_getElem? f1 hg
  obtain ⟨row, hrow, y, y', hy, hloadr, hy'⟩ := forall₂_getElem? fd hg
  obtain ⟨t, htt, z, z', hz, hloadt, hz'⟩ := forall₂_getElem? ft hg
  obtain ⟨v2, hv2, w, w', hw, hload2, hw'⟩ := forall₂_getElem? f2 hg
  obtain ⟨m₁, ⟨hm₁, hm₁'⟩, rfl⟩ := exec_load_seq.mp hload1
  obtain ⟨m₂, ⟨hm₂, hm₂'⟩, rfl⟩ := exec_load_seq.mp hload2
  obtain ⟨mt, ⟨hmt, hmt'⟩, rfl⟩ := exec_load_t_ns.mp hloadt
  -- the row loads lie between the two stamp reads, the timestamp load too
  have ha : ReflTransGen (Step R) m₁ a := hm₁'.trans hx'
  have hc : ReflTransGen (Step R) c m₂ := hw.trans hm₂
  have hb : ReflTransGen (Step R) b c := ht.reach
  refine ⟨m₁, m₂, hx.trans hm₁, (ha.trans (hd.reach.trans hb)).trans hc,
    hm₂'.trans hw', hv1, hv2, ?_⟩
  intro sample hholds
  constructor
  · rw [hrow, @load_row_spec _ _ _ _ _ _ sample hloadr]
    rintro l ⟨hl, hl'⟩
    exact hholds l ⟨ha.trans (hy.trans hl), (hl'.trans (hy'.trans hb)).trans hc⟩
  · rw [htt]
    have hmid : Between (Step R) m₁ mt m₂ :=
      ⟨(ha.trans hd.reach).trans (hz.trans hmt), (hmt'.trans hz').trans hc⟩
    rw [(hholds mt hmid).1]

/-- A row whose two stamps are its index is that append's sample, and was not being
recycled when the copying started. -/
theorem Copies.good {R : RingSpec} {m m' : Producer α} {gidx : List ℕ} {s1 s2 : List ℤ}
    {data : List (List α)} {t_ns : List ℤ} (h : Copies R m m' gidx s1 s2 data t_ns)
    (hinv : Inv R m) {i g : ℕ} (hg : gidx[i]? = some g) (hok1 : s1[i]? = some (g : ℤ))
    (hok2 : s2[i]? = some (g : ℤ)) :
    begun R m ≤ g + R.capacity ∧ ∃ sample, m'.log[g]? = some sample ∧
      data[i]? = some sample.1 ∧ t_ns[i]? = some sample.2 := by
  obtain ⟨m₁, m₂, h₁, h₁₂, h₂, hv1, hv2, hcopy⟩ := h.stamps i g hg
  obtain ⟨hinv₁, hgrow₁⟩ := inv_reach hinv h₁
  have hg₁ : m₁.mem.seq (R.slot g) = (g : ℤ) := Option.some.inj (hv1.symm.trans hok1)
  have hg₂ : m₂.mem.seq (R.slot g) = (g : ℤ) := Option.some.inj (hv2.symm.trans hok2)
  obtain ⟨sample, hlog, -⟩ := holds_of_stamp hinv₁ hg₁
  have hrow := hcopy sample fun l hl => by
    obtain ⟨sample', hlog', hholds⟩ := row_between hinv₁ hl.1 hl.2 hg₁ hg₂
    rw [hlog] at hlog'
    cases hlog'
    exact hholds
  have hgrow := (inv_reach hinv₁ (h₁₂.trans h₂)).2
  have hB := ((stamp_iff hinv₁ _ g).mp hg₁).2.2
  exact ⟨hgrow₁.begun_le.trans hB, sample, getElem?_of_grows hgrow.log_grows hlog, hrow⟩

/-- A published row that failed its stamps has begun to be recycled. -/
theorem Copies.bad {R : RingSpec} {m m' : Producer α} {gidx : List ℕ} {s1 s2 : List ℤ}
    {data : List (List α)} {t_ns : List ℤ} (h : Copies R m m' gidx s1 s2 data t_ns)
    (hinv : Inv R m) {i g : ℕ} (hg : gidx[i]? = some g) (hpub : g < published m)
    (hbad : ¬ (s1[i]? = some (g : ℤ) ∧ s2[i]? = some (g : ℤ))) :
    g + R.capacity < begun R m' := by
  obtain ⟨m₁, m₂, h₁, h₁₂, h₂, hv1, hv2, -⟩ := h.stamps i g hg
  -- a state that shows another stamp has recycled the slot
  have hkey : ∀ l, ReflTransGen (Step R) m l → ReflTransGen (Step R) l m' →
      l.mem.seq (R.slot g) ≠ (g : ℤ) → g + R.capacity < begun R m' := by
    intro l hl hl' hne
    obtain ⟨hinvl, hgrow⟩ := inv_reach hinv hl
    have hgrow' := (inv_reach hinvl hl').2
    have hrecycled := recycled_of_stamp_ne hinvl (hpub.trans_le hgrow.published_le) hne
    exact hrecycled.trans_le hgrow'.begun_le
  by_cases hs1 : m₁.mem.seq (R.slot g) = (g : ℤ)
  · refine hkey m₂ (h₁.trans h₁₂) h₂ fun hs2 => hbad ⟨?_, ?_⟩
    · rw [hv1, hs1]
    · rw [hv2, hs2]
  · exact hkey m₁ h₁ (h₁₂.trans h₂) hs1

/-- Reading the validation vector. -/
theorem stamps_ok_getElem? {gidx : List ℕ} {s1 s2 : List ℤ} {i g : ℕ} {a b : ℤ}
    (hg : gidx[i]? = some g) (ha : s1[i]? = some a) (hb : s2[i]? = some b) :
    (stamps_ok gidx s1 s2)[i]? = some (a == (g : ℤ) && b == (g : ℤ)) := by
  have hzip : (s1.zip s2)[i]? = some (a, b) := by
    rw [List.getElem?_zip_eq_some]
    exact ⟨ha, hb⟩
  rw [stamps_ok, List.getElem?_zipWith, hg, hzip]

/-- There is a verdict for every row that was copied. -/
theorem length_stamps_ok {gidx : List ℕ} {s1 s2 : List ℤ} (h1 : s1.length = gidx.length)
    (h2 : s2.length = gidx.length) : (stamps_ok gidx s1 s2).length = gidx.length := by
  rw [stamps_ok, List.length_zipWith, List.length_zip, h1, h2]
  omega

/-- Reading `ok` at a row a pass copied. -/
theorem Copies.ok_iff {R : RingSpec} {m m' : Producer α} {gidx : List ℕ} {s1 s2 : List ℤ}
    {data : List (List α)} {t_ns : List ℤ} (h : Copies R m m' gidx s1 s2 data t_ns)
    {i g : ℕ} (hg : gidx[i]? = some g) :
    (stamps_ok gidx s1 s2)[i]? = some true ↔
      s1[i]? = some (g : ℤ) ∧ s2[i]? = some (g : ℤ) := by
  obtain ⟨m₁, m₂, -, -, -, hv1, hv2, -⟩ := h.stamps i g hg
  rw [stamps_ok_getElem? hg hv1 hv2, hv1, hv2]
  simp only [Option.some.injEq, Bool.and_eq_true, beq_iff_eq]

/-- The validated suffix of a pass, with what its start says about the rows left
out. -/
theorem Copies.batch {R : RingSpec} {m m' : Producer α} {k wc start : ℕ}
    {s1 s2 : List ℤ} {data : List (List α)} {t_ns : List ℤ}
    (h : Copies R m m' (newest_indices R k wc) s1 s2 data t_ns)
    (hinv : Inv R m) (hpub : wc ≤ published m) (hstart : start < asked R k wc)
    (hok : ∀ i, start ≤ i → i < asked R k wc →
      (stamps_ok (newest_indices R k wc) s1 s2)[i]? = some true)
    (hbad : start = 0 ∨ (stamps_ok (newest_indices R k wc) s1 s2)[start - 1]? = some false)
    (overrun : Bool) :
    Batch R k m m' wc start ⟨data.drop start, t_ns.drop start,
      (newest_indices R k wc).drop start, overrun⟩ := by
  have hwc := asked_le R k wc
  have hgood : ∀ i g, (newest_indices R k wc)[start + i]? = some g →
      begun R m ≤ g + R.capacity ∧ ∃ sample, m'.log[g]? = some sample ∧
        data[start + i]? = some sample.1 ∧ t_ns[start + i]? = some sample.2 := by
    intro i g hg
    have hlt : start + i < asked R k wc := by
      have := (List.getElem?_eq_some_iff.mp hg).1
      rwa [length_newest_indices] at this
    obtain ⟨hok1, hok2⟩ := (h.ok_iff hg).mp (hok _ (Nat.le_add_right _ _) hlt)
    exact h.good hinv hg hok1 hok2
  refine ⟨hstart, ?_, ⟨?_, ?_, ?_⟩, ?_, ?_⟩
  · -- a suffix of consecutive indices is consecutive
    show List.drop start (newest_indices R k wc) = _
    rw [newest_indices, List.drop_range', Nat.mul_one]
  · simp only [List.length_drop, h.data_length]
  · simp only [List.length_drop, h.t_ns_length]
  · intro i g hg
    simp only [List.getElem?_drop] at hg ⊢
    exact (hgood i g hg).2
  · intro g hg
    obtain ⟨i, hi⟩ := List.mem_iff_getElem?.mp hg
    simp only [List.getElem?_drop] at hi
    exact (hgood i g hi).1
  · -- everything up to the bad row before `start` is at least as old, so recycled too
    intro g hlo hhi hB
    rcases hbad with hzero | hbad
    · omega
    · by_cases hpos : start = 0
      · omega
      have hg := newest_indices_getElem? R k wc (i := start - 1) (by omega)
      have hrecycled := h.bad hinv hg (by omega) fun hcon => by
        rw [(h.ok_iff hg).mpr hcon] at hbad
        cases hbad
      omega

/-- What a pass of the retry loop knows when it is over. -/
def AttemptSpec (R : RingSpec) (k : ℕ) (p p' : Producer α) : Attempt α → Prop
  | .empty => ∃ m, Between (Step R) p m p' ∧ published m = 0
  | .valid s => ∃ m, Between (Step R) p m p' ∧ Batch R k p p' (published m) 0 s ∧
      s.overrun = false
  | .torn (some s) => ∃ m start, Between (Step R) p m p' ∧ 0 < start ∧
      Batch R k p p' (published m) start s ∧ s.overrun = true
  | .torn none => ∃ m, Between (Step R) p m p' ∧ 0 < published m ∧
      published m + R.capacity ≤ begun R p'

/-- What `judge` decides about the copies of one pass: all rows, the suffix behind the last bad one,
or that even the newest row was lost. -/
theorem judge_spec {R : RingSpec} {k : ℕ} (hk : 0 < k) {p m m₀ d : Producer α}
    {s1 s2 : List ℤ} {data : List (List α)} {t_ns : List ℤ}
    (hcopies : Copies R m₀ d (newest_indices R k (published m)) s1 s2 data t_ns)
    (hinv : Inv R m₀) (hpos : 0 < published m) (hpub : published m ≤ published m₀)
    (hgrow : Grows R p m₀) (hbetween : Between (Step R) p m d) :
    AttemptSpec R k p d (judge (newest_indices R k (published m)) s1 s2 data t_ns) := by
  have hasked := asked_pos (R := R) hk hpos
  have hlen := length_stamps_ok hcopies.s1_length hcopies.s2_length
  rw [length_newest_indices] at hlen
  unfold judge
  split
  · rename_i hall
    refine ⟨m, hbetween, (hcopies.batch hinv hpub hasked (fun i _ hi => ?_) (.inl rfl)
      false).mono hgrow (Grows.refl R d), rfl⟩
    rw [← hlen] at hi
    rw [List.getElem?_eq_getElem hi]
    exact congrArg some (List.all_eq_true.mp hall _ (List.getElem_mem hi))
  · rename_i hall
    have hstart := salvage_pos_of_not_all hall
    have hbad := bad_of_salvage_pos hstart
    rw [length_newest_indices]
    split
    · rename_i hlt
      exact ⟨m, _, hbetween, hstart, (hcopies.batch hinv hpub hlt
        (fun i hi hi' => ok_of_salvage_le hi (by rw [hlen]; exact hi')) (.inr hbad)
        true).mono hgrow (Grows.refl R d), rfl⟩
    · rename_i hge
      refine ⟨m, hbetween, hpos, ?_⟩
      -- the newest row itself is the last bad one
      have hle := (List.getElem?_eq_some_iff.mp hbad).1
      have hlast : salvage_start (stamps_ok (newest_indices R k (published m)) s1 s2) - 1
          = asked R k (published m) - 1 := by omega
      have hwc := asked_le R k (published m)
      have hg := newest_indices_getElem? R k (published m)
        (i := asked R k (published m) - 1) (by omega)
      rw [hlast] at hbad
      have hrecycled := hcopies.bad hinv hg (by omega) fun hcon => by
        rw [(hcopies.ok_iff hg).mpr hcon] at hbad
        cases hbad
      omega

/-- What a pass found remains true while the producer goes on: its rows stay in the log, and
overwritten ones stay overwritten. -/
theorem AttemptSpec.mono {R : RingSpec} {k : ℕ} {p d p' : Producer α} {r : Attempt α}
    (h : AttemptSpec R k p d r) (hinv : Inv R d) (hend : ReflTransGen (Step R) d p') :
    AttemptSpec R k p p' r := by
  have hgrow := (inv_reach hinv hend).2
  match r with
  | .empty =>
    obtain ⟨m, ⟨h₁, h₂⟩, hm⟩ := h
    exact ⟨m, ⟨h₁, h₂.trans hend⟩, hm⟩
  | .valid s =>
    obtain ⟨m, ⟨h₁, h₂⟩, hb, ho⟩ := h
    exact ⟨m, ⟨h₁, h₂.trans hend⟩, hb.mono (Grows.refl R p) hgrow, ho⟩
  | .torn (some s) =>
    obtain ⟨m, start, ⟨h₁, h₂⟩, hs, hb, ho⟩ := h
    exact ⟨m, start, ⟨h₁, h₂.trans hend⟩, hs, hb.mono (Grows.refl R p) hgrow, ho⟩
  | .torn none =>
    obtain ⟨m, ⟨h₁, h₂⟩, hm, hB⟩ := h
    exact ⟨m, ⟨h₁, h₂.trans hend⟩, hm, hB.trans hgrow.begun_le⟩

/-- **One pass.** It finds nothing published, or returns rows that are the samples of their appends,
or has been lapped by the time it is over. -/
theorem attempt_spec {R : RingSpec} {k : ℕ} (hk : 0 < k) {p p' : Producer α} {r : Attempt α}
    (hinv : Inv R p) (h : Exec (Step R) view p (attempt R k) p' r) :
    AttemptSpec R k p p' r := by
  unfold attempt at h
  obtain ⟨m₀, wc, hwc, h⟩ := exec_bind.mp h
  obtain ⟨m, ⟨hm, hm₀⟩, rfl⟩ := exec_load_write_count.mp hwc
  obtain ⟨hinvm, -⟩ := inv_reach hinv hm
  obtain ⟨hinv₀, hgrow₀⟩ := inv_reach hinvm hm₀
  by_cases hzero : published m = 0
  · rw [if_pos hzero] at h
    obtain ⟨hend, rfl⟩ := exec_pure.mp h
    exact ⟨m, ⟨hm, hm₀.trans hend⟩, hzero⟩
  rw [if_neg hzero] at h
  obtain ⟨a, s1, h1, h⟩ := exec_bind.mp h
  obtain ⟨b, data, hd, h⟩ := exec_bind.mp h
  obtain ⟨c, t_ns, ht, h⟩ := exec_bind.mp h
  obtain ⟨d, s2, h2, h⟩ := exec_bind.mp h
  obtain ⟨hend, rfl⟩ := exec_pure.mp h
  have hreach : ReflTransGen (Step R) m₀ d :=
    h1.reach.trans (hd.reach.trans (ht.reach.trans h2.reach))
  have hspec := judge_spec hk (copies_of_exec h1 hd ht h2) hinv₀ (by omega)
    hgrow₀.published_le (inv_reach hinv (hm.trans hm₀)).2 ⟨hm, hm₀.trans hreach⟩
  exact hspec.mono (inv_reach hinv₀ hreach).1 hend

/-! ## The retry loop -/

/-- What `last` can return other than by giving up: nothing because nothing was
published yet, or a batch read at some write count of the call. -/
def Answered (R : RingSpec) (k : ℕ) (p p' : Producer α) (s : Samples α) : Prop :=
  (∃ m, Between (Step R) p m p' ∧ published m = 0 ∧ s = Samples.empty) ∨
  ∃ m start, Between (Step R) p m p' ∧ Batch R k p p' (published m) start s ∧
    (s.overrun = false → start = 0)

/-- `retries` passes in a row lost even the newest row: the last of them at a write
count that is a whole lap behind by now, and each of them a lap (less one) further
on. -/
def GaveUp (R : RingSpec) (retries : ℕ) (p p' : Producer α) : Prop :=
  retries = 0 ∨ (published p + retries * (R.capacity - 1) + 1 ≤ begun R p' ∧
    ∃ m, Between (Step R) p m p' ∧ 0 < published m ∧ published m + R.capacity ≤ begun R p')

/-- An answer of a part of the call is one of the whole call. -/
theorem Answered.head {R : RingSpec} {k : ℕ} {p q p' : Producer α} {s : Samples α}
    (hinv : Inv R p) (hreach : ReflTransGen (Step R) p q) (h : Answered R k q p' s) :
    Answered R k p p' s := by
  rcases h with ⟨m, ⟨h₁, h₂⟩, hrest⟩ | ⟨m, start, ⟨h₁, h₂⟩, hb, ho⟩
  · exact .inl ⟨m, ⟨hreach.trans h₁, h₂⟩, hrest⟩
  · exact .inr ⟨m, start, ⟨hreach.trans h₁, h₂⟩,
      hb.mono (inv_reach hinv hreach).2 (Grows.refl R p'), ho⟩

/-- The retry loop: an answer, or the suffix kept so far after `retries` hopeless
passes. The induction is on the passes left. -/
theorem last_loop_spec {R : RingSpec} {k : ℕ} (hk : 0 < k) (retries : ℕ)
    {last_ok : Option (Samples α)} {p p' : Producer α} {s : Samples α} (hinv : Inv R p)
    (h : Exec (Step R) view p (last_loop R k retries last_ok) p' s) :
    Answered R k p p' s ∨ (GaveUp R retries p p' ∧ s = last_ok.getD Samples.empty) := by
  induction retries generalizing last_ok p with
  | zero =>
    obtain ⟨-, hs⟩ := exec_pure.mp h
    exact .inr ⟨.inl rfl, hs⟩
  | succ retries ih =>
    obtain ⟨q, r, hr, h⟩ := exec_bind.mp h
    have hspec := attempt_spec hk hinv hr
    obtain ⟨hinvq, hgrowq⟩ := inv_reach hinv hr.reach
    match r, hspec, h with
    | .empty, ⟨m, ⟨h₁, h₂⟩, hm⟩, h =>
      obtain ⟨hend, rfl⟩ := exec_pure.mp h
      exact .inl (.inl ⟨m, ⟨h₁, h₂.trans hend⟩, hm, rfl⟩)
    | .valid s', ⟨m, ⟨h₁, h₂⟩, hb, ho⟩, h =>
      obtain ⟨hend, rfl⟩ := exec_pure.mp h
      exact .inl (.inr ⟨m, 0, ⟨h₁, h₂.trans hend⟩, hb.mono (Grows.refl R p)
        (inv_reach hinvq hend).2, fun _ => rfl⟩)
    | .torn (some s'), ⟨m, start, ⟨h₁, h₂⟩, hs, hb, ho⟩, h =>
      -- the suffix kept here is returned if no later pass does better
      rcases ih hinvq h with hans | ⟨-, rfl⟩
      · exact .inl (hans.head hinv hr.reach)
      · refine .inl (.inr ⟨m, start, ⟨h₁, h₂.trans h.reach⟩,
          hb.mono (Grows.refl R p) (inv_reach hinvq h.reach).2, fun hf => ?_⟩)
        rw [ho] at hf
        cases hf
    | .torn none, ⟨m, ⟨h₁, h₂⟩, hm, hB⟩, h =>
      rcases ih hinvq h with hans | ⟨hgave, hs⟩
      · exact .inl (hans.head hinv hr.reach)
      · refine .inr ⟨.inr ?_, hs⟩
        -- this pass lost its newest row, so it was lapped; the later ones add their laps
        have hcap := R.capacity_pos
        have hpm := (inv_reach hinv h₁).2.published_le
        have hq := hinvq.bounds.2.2.1
        have hmono := (inv_reach hinvq h.reach).2.begun_le
        rw [Nat.succ_mul]
        rcases hgave with rfl | ⟨hlap, m', ⟨h₁', h₂'⟩, hm'⟩
        · exact ⟨by omega, m, ⟨h₁, h₂.trans h.reach⟩, hm, by omega⟩
        · exact ⟨by omega, m', ⟨hr.reach.trans h₁', h₂'⟩, hm'⟩

/-- **`last`.** A non-positive `k` asks for nothing; otherwise the call answers, or it
has been lapped in each of its passes and returns nothing. -/
theorem last_spec {R : RingSpec} {k : ℤ} {p p' : Producer α} {s : Samples α}
    (hinv : Inv R p) (h : Exec (Step R) view p (last R k) p' s) :
    (k ≤ 0 ∧ s = Samples.empty) ∨
      (0 < k ∧ (Answered R k.toNat p p' s ∨
        (GaveUp R read_retries p p' ∧ s = Samples.empty))) := by
  unfold last at h
  by_cases hk : k ≤ 0
  · rw [if_pos hk] at h
    exact .inl ⟨hk, (exec_pure.mp h).2⟩
  · rw [if_neg hk] at h
    exact .inr ⟨by omega, last_loop_spec (by omega) read_retries hinv h⟩

/-! ## What a caller gets -/

/-- A batch has the rows that were asked for from its start on. -/
theorem Batch.n_eq {R : RingSpec} {k wc start : ℕ} {p p' : Producer α} {s : Samples α}
    (h : Batch R k p p' wc start s) : s.n = asked R k wc - start := by
  rw [Samples.n, h.rows.data_length, h.seq_eq, List.length_range']

/-- How reading the whole ring between `q` and `q'` can end. It returns nothing when nothing was
ever published or when it was lapped in each of its passes; otherwise the rows from the oldest
that survived, `lo`, up to a write count `w` the ring had meanwhile. -/
inductive WindowSpec (R : RingSpec) (q q' : Producer α) (s : Samples α) : Prop where
  | quiet (hs : s = Samples.empty)
      (hwhy : published q = 0 ∨ published q + read_retries * (R.capacity - 1) < begun R q')
  | read (lo w : ℕ) (hlo : lo < w) (hpub : published q ≤ w) (hpub' : w ≤ published q')
      (hseq : s.seq = List.range' lo (w - lo)) (hrows : RowsFrom q' s)
      (hfresh : begun R q ≤ lo + R.capacity)
      (hkept : ∀ g, g < w → begun R q' ≤ g + R.capacity → lo ≤ g)

/-- **`last` of the whole ring**: nothing was published, or the window below a write count of the
call, cut off where the producer has begun to recycle. -/
theorem last_window_spec {R : RingSpec} {q q' : Producer α} {s : Samples α} (hinv : Inv R q)
    (h : Exec (Step R) view q (last R R.capacity) q' s) : WindowSpec R q q' s := by
  have hcap := R.capacity_pos
  rcases last_spec hinv h with
    ⟨hk, -⟩ | ⟨-, (⟨m, hm, hzero, rfl⟩ | ⟨m, start, hm, hb, -⟩) | ⟨hgave, rfl⟩⟩
  · omega
  · refine .quiet rfl (.inl ?_)
    have := (inv_reach hinv hm.1).2.published_le
    omega
  · obtain ⟨hinvm, hgrow⟩ := inv_reach hinv hm.1
    have hgrow' := (inv_reach hinvm hm.2).2
    have hasked : asked R (R.capacity : ℤ).toNat (published m) =
        min R.capacity (published m) := by
      unfold asked
      rw [Int.toNat_natCast, Nat.min_self]
    have hstart := hb.start_lt
    have hseq := hb.seq_eq
    have hpub := hgrow.published_le
    rw [hasked] at hstart hseq
    generalize hlo : published m - min R.capacity (published m) + start = lo at hseq
    have hlen : min R.capacity (published m) - start = published m - lo := by omega
    rw [hlen] at hseq
    refine .read lo (published m) (by omega) hpub hgrow'.published_le hseq hb.rows ?_ ?_
    · refine hb.fresh lo ?_
      rw [hseq]
      exact List.mem_range'_1.mpr (by omega)
    · intro g hg hB
      have hbound := hgrow'.begun_le.trans hB
      have hpb := hinvm.bounds
      have := hb.kept g (by rw [hasked]; omega) hg hB
      rw [hasked] at this
      omega
  · refine .quiet rfl (.inr ?_)
    rcases hgave with h0 | ⟨hlap, -⟩
    · exact absurd h0 (by decide)
    · omega

/-- Filtering a window by a lower bound leaves a window, which may have lost its front. -/
theorem filter_range'_ge {lo w e : ℕ} (he : e ≤ w) :
    (List.range' lo (w - lo)).filter (fun g => decide (e ≤ g)) =
      List.range' (max lo e) (w - max lo e) := by
  have hsplit : List.range' lo (w - lo) =
      List.range' lo (max lo e - lo) ++ List.range' (max lo e) (w - max lo e) := by
    have happ := @List.range'_append_1 lo (max lo e - lo) (w - max lo e)
    have hstart : lo + (max lo e - lo) = max lo e := by omega
    rw [hstart] at happ
    rw [happ]
    congr 1
    omega
  rw [hsplit, List.filter_append, List.filter_eq_nil_iff.mpr, List.filter_eq_self.mpr,
    List.nil_append]
  · intro g hg
    have := (List.mem_range'_1.mp hg).1
    exact decide_eq_true (by omega)
  · intro g hg
    have := List.mem_range'_1.mp hg
    simp only [decide_eq_true_eq]
    omega

/-- **`latest`.** The newest sample of some moment of the call, or nothing because there
was nothing or because all passes lost their race. -/
theorem latest_spec {R : RingSpec} {p p' : Producer α} {s : Samples α} (hinv : Inv R p)
    (h : Exec (Step R) view p (latest R) p' s) :
    (s = Samples.empty ∧ (published p = 0 ∨ GaveUp R read_retries p p')) ∨
      ∃ m sample, Between (Step R) p m p' ∧ 0 < published m ∧
        p'.log[published m - 1]? = some sample ∧ s.seq = [published m - 1] ∧
        s.data = [sample.1] ∧ s.t_ns = [sample.2] := by
  rcases last_spec hinv h with
    ⟨hk, -⟩ | ⟨-, (⟨m, hm, hzero, hs⟩ | ⟨m, start, hm, hb, -⟩) | ⟨hgave, hs⟩⟩
  · exact absurd hk (by decide)
  · have hle := (inv_reach hinv hm.1).2.published_le
    exact .inl ⟨hs, .inl (by omega)⟩
  · -- one row was asked for, so it is the newest one and none was dropped
    have hone : asked R (1 : ℤ).toNat (published m) ≤ 1 := by
      unfold asked
      exact (Nat.min_le_left _ _).trans (Nat.min_le_left _ _)
    have hle := asked_le R (1 : ℤ).toNat (published m)
    have hstart := hb.start_lt
    have hseq := hb.seq_eq
    have hlen : asked R (1 : ℤ).toNat (published m) - start = 1 := by omega
    have hlo : published m - asked R (1 : ℤ).toNat (published m) + start = published m - 1 := by
      omega
    rw [hlen, hlo, List.range'_one] at hseq
    obtain ⟨sample, hlog, hdata, ht⟩ := hb.rows.row 0 (published m - 1) (by rw [hseq]; rfl)
    have hn := hb.rows.data_length
    have hn' := hb.rows.t_ns_length
    rw [hseq, List.length_singleton] at hn hn'
    refine .inr ⟨m, sample, hm, by omega, hlog, hseq, ?_, ?_⟩
    · obtain ⟨x, hx⟩ := List.length_eq_one_iff.mp hn
      rw [hx] at hdata ⊢
      rw [Option.some.inj hdata]
    · obtain ⟨x, hx⟩ := List.length_eq_one_iff.mp hn'
      rw [hx] at ht ⊢
      rw [Option.some.inj ht]
  · exact .inl ⟨hs, .inr hgave⟩

/-- **No torn or misattributed sample.** Whatever the producer does meanwhile, every
row `last` returns is the payload and timestamp of the append its index names; the
indices are consecutive and no more than asked for; and an answer that does not
report an overrun is the newest window below a write count the ring had during the
call. -/
theorem last_returns_appended_samples [Zero α] {R : RingSpec} {p p' : Producer α} {k : ℤ}
    {s : Samples α} (hp : Reachable R p) (h : Exec (Step R) view p (last R k) p' s) :
    RowsFrom p' s ∧ (∃ a, s.seq = List.range' a s.n) ∧ s.n ≤ min k.toNat R.capacity ∧
      (s.overrun = false → s.n ≠ 0 → ∃ m, Between (Step R) p m p' ∧
        s.seq = newest_indices R k.toNat (published m)) := by
  -- `Samples.empty` keeps every promise
  have hempty : ∀ r : Samples α, r = Samples.empty →
      RowsFrom p' r ∧ (∃ a, r.seq = List.range' a r.n) ∧ r.n ≤ min k.toNat R.capacity ∧
        (r.overrun = false → r.n ≠ 0 → ∃ m, Between (Step R) p m p' ∧
          r.seq = newest_indices R k.toNat (published m)) := by
    rintro r rfl
    exact ⟨rowsFrom_empty p', ⟨0, rfl⟩, Nat.zero_le _, fun _ hne => absurd rfl hne⟩
  rcases last_spec (inv_of_reachable hp) h with
    ⟨-, hs⟩ | ⟨-, (⟨-, -, -, hs⟩ | ⟨m, start, hm, hb, ho⟩) | ⟨-, hs⟩⟩
  · exact hempty s hs
  · exact hempty s hs
  · refine ⟨hb.rows, ⟨_, by rw [hb.n_eq]; exact hb.seq_eq⟩, ?_, fun hov _ => ⟨m, hm, ?_⟩⟩
    · rw [hb.n_eq]
      exact (Nat.sub_le _ _).trans (Nat.min_le_left _ _)
    · have hseq := hb.seq_eq
      rw [ho hov] at hseq
      exact hseq
  · exact hempty s hs

/-- Two slots of one word, and one published sample. -/
def two_slots : RingSpec := ⟨2, 1, Nat.two_pos⟩

def one_sample : Producer ℤ := ((Producer.create : Producer ℤ).post two_slots [7] 5).getD .create

/-- The ring with one published sample is reached from an empty one. -/
theorem one_sample_reachable : Reachable two_slots one_sample :=
  runActs_reach (show runActs (Producer.step two_slots)
    (.append [7] 5 :: List.replicate 5 .store) .create = some one_sample from rfl)

/-- A whole append lands between the reader's load of the write count and its first
stamp; the reader still returns the sample it set out to read. -/
theorem last_returns_appended_samples_two_slots :
    ∃ p', Exec (Step two_slots) view one_sample (last two_slots 2) p' ⟨[[7]], [5], [0], false⟩ ∧
      RowsFrom p' ⟨[[7]], [5], [0], false⟩ ∧
      ∃ m, Between (Step two_slots) one_sample m p' ∧
        [0] = newest_indices two_slots 2 (published m) := by
  have hrun : ((last two_slots 2).schedule (Producer.step two_slots) view
      [[], .append [9] 6 :: List.replicate 5 .store] one_sample).map
        (fun x => (published x.1, x.2)) = some (2, ⟨[[7]], [5], [0], false⟩) := rfl
  obtain ⟨p', hp', -⟩ := exec_schedule_observe published hrun
  have hspec := last_returns_appended_samples one_sample_reachable hp'
  exact ⟨p', hp', hspec.1, hspec.2.2.2 rfl (by decide)⟩

end DualFlexivControl.Ring
