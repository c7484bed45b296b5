/-
The seqlock invariant of the ring: what a slot's stamp says about the slot.

Three counters describe how far the producer has got, and all three only ever
grow:

* `published`  the write count of the header;
* `begun`      appends whose slot has been invalidated;
* `stamped`    appends whose slot carries its index.

The whole invariant is that the stamps are a function of two of them. The stamp of
slot `s` is `g` exactly when `g` belongs to `s`, has been stamped, and the append
that recycles its slot, `g + capacity`, has not been begun ([`stamp_iff`]). While
that is so, the slot holds the payload and the timestamp of append `g`.

That settles the two questions a seqlock raises at once. A stamp cannot recur once
it is gone, because both inequalities are monotone; and two equal stamp reads mean
the slot was valid at every moment between them ([`row_between`]), so whatever a
reader copied in between is one append's sample.
-/
import DualFlexivControl.Streams.Ring

set_option autoImplicit false

namespace DualFlexivControl.Ring

open Interleave Relation

variable {α : Type}

/-! ## Counters -/

/-- Samples published so far. -/
def published (p : Producer α) : ℕ := p.mem.write_count

/-- Appends that have invalidated their slot. -/
def begun (R : RingSpec) (p : Producer α) : ℕ :=
  if p.pending.length = R.dim + 4 then p.log.length - 1 else p.log.length

/-- Appends that have stamped their slot. -/
def stamped (p : Producer α) : ℕ :=
  if p.pending.length ≤ 1 then p.log.length else p.log.length - 1

/-! ## Slots -/

/-- Two indices less than one lap apart never share a slot. -/
theorem slot_eq_of_window {R : RingSpec} {g n : ℕ} (h : R.slot g = R.slot n)
    (hle : g ≤ n) (hlt : n < g + R.capacity) : g = n := by
  have hmod : g ≡ n [MOD R.capacity] := h
  have hdvd : R.capacity ∣ n - g := (Nat.modEq_iff_dvd' hle).mp hmod
  have hzero : n - g = 0 := Nat.eq_zero_of_dvd_of_lt hdvd (by omega)
  omega

/-- One lap later the slot comes round again. -/
theorem slot_add_capacity (R : RingSpec) (g : ℕ) : R.slot (g + R.capacity) = R.slot g := by
  simp only [RingSpec.slot, Nat.add_mod_right]

/-! ## What the stamps say -/

/-- The slot of sample `(vec, t_ns)` holds that sample. -/
def Holds (R : RingSpec) (m : Mem α) (slot : ℕ) (sample : List α × ℤ) : Prop :=
  m.t_ns slot = sample.2 ∧ sample.1.length = R.dim ∧
    ∀ j x, sample.1[j]? = some x → m.data slot j = x

/-- The stamps are the ones the counters ask for, and a stamped slot holds its
sample. -/
structure Valid (R : RingSpec) (m : Mem α) (log : List (List α × ℤ)) (B T : ℕ) : Prop where
  stamp : ∀ (s g : ℕ), m.seq s = (g : ℤ) ↔ R.slot g = s ∧ g < T ∧ B ≤ g + R.capacity
  payload : ∀ g, g < T → B ≤ g + R.capacity →
    ∃ sample, log[g]? = some sample ∧ Holds R m (R.slot g) sample

theorem valid_create [Zero α] (R : RingSpec) : Valid R (Mem.create : Mem α) [] 0 0 := by
  refine ⟨fun s g => ⟨fun h => ?_, fun h => absurd h.2.1 (Nat.not_lt_zero _)⟩,
    fun g hg => absurd hg (Nat.not_lt_zero _)⟩
  simp only [Mem.create] at h
  omega

section Stores

variable {R : RingSpec} {m : Mem α} {log : List (List α × ℤ)} {B T n : ℕ}

/-- A new call extends the log beyond everything the counters talk about. -/
theorem Valid.log_append (h : Valid R m log B T) (sample : List α × ℤ) :
    Valid R m (log ++ [sample]) B T := by
  refine ⟨h.stamp, fun g hg hB => ?_⟩
  obtain ⟨x, hx, hholds⟩ := h.payload g hg hB
  refine ⟨x, ?_, hholds⟩
  have hlt : g < log.length := (List.getElem?_eq_some_iff.mp hx).1
  rw [List.getElem?_append_left hlt, hx]

/-- Step 1 of `append`: the recycled sample loses its stamp, and only it. -/
theorem Valid.invalidate (h : Valid R m log n n) :
    Valid R (m.store (.seq (R.slot n) (-1))) log (n + 1) n := by
  refine ⟨fun s g => ?_, fun g hg hB => h.payload g hg (by omega)⟩
  have hold := h.stamp s g
  simp only [Mem.store]
  by_cases hs : s = R.slot n
  · -- nobody is stamped here any more, and nobody asks to be
    rw [if_pos hs]
    constructor
    · intro hneg; omega
    · rintro ⟨hslot, hlt, hB⟩
      have := slot_eq_of_window (R := R) (hslot.trans hs) (by omega) (by omega)
      omega
  · rw [if_neg hs, hold]
    constructor
    · rintro ⟨hslot, hlt, hB⟩
      refine ⟨hslot, hlt, ?_⟩
      -- the one index that drops out is the one recycled, and it lives in `R.slot n`
      by_contra hcon
      have hg : g + R.capacity = n := by omega
      exact hs (by rw [← hslot, ← hg, slot_add_capacity])
    · rintro ⟨hslot, hlt, hB⟩
      exact ⟨hslot, hlt, by omega⟩

/-- A valid sample never sits in the slot being rewritten. -/
theorem slot_ne_of_valid {g : ℕ} (hg : g < n) (hB : n + 1 ≤ g + R.capacity) :
    R.slot g ≠ R.slot n := by
  intro hslot
  have := slot_eq_of_window (R := R) hslot (by omega) (by omega)
  omega

/-- Step 2 of `append`, one payload word. -/
theorem Valid.write_data (h : Valid R m log (n + 1) n) (j : ℕ) (x : α) :
    Valid R (m.store (.data (R.slot n) j x)) log (n + 1) n := by
  refine ⟨h.stamp, fun g hg hB => ?_⟩
  obtain ⟨sample, hlog, ht, hlen, hrow⟩ := h.payload g hg hB
  refine ⟨sample, hlog, ht, hlen, fun i y hy => ?_⟩
  have hne : ¬ (R.slot g = R.slot n ∧ i = j) := fun hcon => slot_ne_of_valid hg hB hcon.1
  simp only [Mem.store]
  rw [if_neg hne]
  exact hrow i y hy

/-- Step 2 of `append`, the timestamp. -/
theorem Valid.write_t_ns (h : Valid R m log (n + 1) n) (t : ℤ) :
    Valid R (m.store (.t_ns (R.slot n) t)) log (n + 1) n := by
  refine ⟨h.stamp, fun g hg hB => ?_⟩
  obtain ⟨sample, hlog, ht, hrest⟩ := h.payload g hg hB
  refine ⟨sample, hlog, ?_, hrest⟩
  simp only [Mem.store]
  rw [if_neg (slot_ne_of_valid hg hB)]
  exact ht

/-- Step 3 of `append`: the slot is filled, and now says so. -/
theorem Valid.write_stamp (h : Valid R m log (n + 1) n) {sample : List α × ℤ}
    (hlog : log[n]? = some sample) (hholds : Holds R m (R.slot n) sample) :
    Valid R (m.store (.seq (R.slot n) n)) log (n + 1) (n + 1) := by
  have hcap := R.capacity_pos
  refine ⟨fun s g => ?_, fun g hg hB => ?_⟩
  · have hold := h.stamp s g
    simp only [Mem.store]
    by_cases hs : s = R.slot n
    · -- the slot's only candidate is `n` itself: a lap either way is out of the window
      rw [if_pos hs]
      constructor
      · intro heq
        have hgn : g = n := by omega
        subst hgn
        exact ⟨hs.symm, by omega, by omega⟩
      · rintro ⟨hslot, hlt, hB⟩
        have := slot_eq_of_window (R := R) (hslot.trans hs) (by omega) (by omega)
        omega
    · rw [if_neg hs, hold]
      constructor
      · rintro ⟨hslot, hlt, hB⟩
        exact ⟨hslot, by omega, hB⟩
      · rintro ⟨hslot, hlt, hB⟩
        refine ⟨hslot, ?_, hB⟩
        by_contra hcon
        have hgn : g = n := by omega
        exact hs (by rw [← hslot, hgn])
  · by_cases hgn : g = n
    · subst hgn
      exact ⟨sample, hlog, hholds⟩
    · exact h.payload g (by omega) hB

/-- Step 4 of `append` touches nothing a stamp is about. -/
theorem Valid.publish (h : Valid R m log B T) (v : ℕ) :
    Valid R (m.store (.write_count v)) log B T := ⟨h.stamp, h.payload⟩

end Stores

/-! ## How far an append has got -/

/-- The stores that follow the payload. -/
def closing_stores (R : RingSpec) (n : ℕ) (t : ℤ) : List (Store α) :=
  [.t_ns (R.slot n) t, .seq (R.slot n) n, .write_count (n + 1)]

/-- The payload stores. -/
def payload_stores (R : RingSpec) (n : ℕ) (vec : List α) : List (Store α) :=
  vec.mapIdx (fun j x => .data (R.slot n) j x)

/-- The pending stores of a producer, read as a position inside `append`, with the
values of `begun` and `stamped` there. -/
inductive Phase (R : RingSpec) (p : Producer α) : ℕ → ℕ → Prop where
  /-- Between two calls. -/
  | idle (hpend : p.pending = []) (hlog : p.log.length = published p) :
      Phase R p (published p) (published p)
  /-- The write count has been loaded and nothing stored. -/
  | loaded (sample : List α × ℤ) (hlog : p.log[published p]? = some sample)
      (hlen : p.log.length = published p + 1) (hdim : sample.1.length = R.dim)
      (hpend : p.pending = append_stores R (published p) sample.1 sample.2) :
      Phase R p (published p) (published p)
  /-- The slot is dirty and its first `j` words are written. -/
  | dirty (sample : List α × ℤ) (j : ℕ) (hj : j ≤ R.dim)
      (hlog : p.log[published p]? = some sample)
      (hlen : p.log.length = published p + 1) (hdim : sample.1.length = R.dim)
      (hpend : p.pending = (payload_stores R (published p) sample.1).drop j ++
        closing_stores R (published p) sample.2)
      (hrow : ∀ i x, i < j → sample.1[i]? = some x →
        p.mem.data (R.slot (published p)) i = x) :
      Phase R p (published p + 1) (published p)
  /-- Payload and timestamp are in place, the stamp is not. -/
  | filled (sample : List α × ℤ) (hlog : p.log[published p]? = some sample)
      (hlen : p.log.length = published p + 1)
      (hholds : Holds R p.mem (R.slot (published p)) sample)
      (hpend : p.pending = [.seq (R.slot (published p)) (published p),
        .write_count (published p + 1)]) :
      Phase R p (published p + 1) (published p)
  /-- Stamped; only the global count is missing. -/
  | sealed (hlen : p.log.length = published p + 1)
      (hpend : p.pending = [.write_count (published p + 1)]) :
      Phase R p (published p + 1) (published p + 1)

theorem length_payload_stores (R : RingSpec) (n : ℕ) (vec : List α) :
    (payload_stores R n vec).length = vec.length := by
  rw [payload_stores, List.length_mapIdx]

/-- The phase determines the counters: how many appends have begun, and how many have their stamps.
-/
theorem Phase.counters {R : RingSpec} {p : Producer α} {B T : ℕ} (h : Phase R p B T) :
    begun R p = B ∧ stamped p = T := by
  unfold begun stamped
  cases h with
  | idle hpend hlog =>
    rw [hpend, hlog]
    simp
  | loaded sample hlog hlen hdim hpend =>
    have hlength : p.pending.length = R.dim + 4 := by
      rw [hpend, append_stores]
      simp only [List.length_cons, List.length_append, List.length_mapIdx, hdim, List.length_nil]
    rw [hlength, hlen]
    simp
  | dirty sample j hj hlog hlen hdim hpend hrow =>
    have hlength : p.pending.length = R.dim - j + 3 := by
      rw [hpend, closing_stores]
      simp only [List.length_cons, List.length_append, List.length_drop,
        length_payload_stores, hdim, List.length_nil]
    rw [hlength, hlen, if_neg (by omega), if_neg (by omega)]
    simp
  | filled sample hlog hlen hholds hpend =>
    rw [hpend, hlen]
    simp
  | sealed hlen hpend =>
    rw [hpend, hlen]
    simp

theorem Phase.bounds {R : RingSpec} {p : Producer α} {B T : ℕ} (h : Phase R p B T) :
    published p ≤ T ∧ T ≤ B ∧ B ≤ published p + 1 ∧ B ≤ p.log.length := by
  cases h <;> omega

/-! ## The invariant -/

/-- The seqlock invariant of a producer. -/
def Inv (R : RingSpec) (p : Producer α) : Prop :=
  ∃ B T, Phase R p B T ∧ Valid R p.mem p.log B T

/-- What one micro-step can change: the counters grow by at most the step it is, and
the log only at its end. -/
structure Grows (R : RingSpec) (p p' : Producer α) : Prop where
  published_le : published p ≤ published p'
  begun_le : begun R p ≤ begun R p'
  stamped_le : stamped p ≤ stamped p'
  log_grows : p.log <+: p'.log

theorem Grows.refl (R : RingSpec) (p : Producer α) : Grows R p p :=
  ⟨Nat.le_refl _, Nat.le_refl _, Nat.le_refl _, List.prefix_refl _⟩

theorem Grows.trans {R : RingSpec} {p p' p'' : Producer α} (h : Grows R p p')
    (h' : Grows R p' p'') : Grows R p p'' :=
  ⟨h.published_le.trans h'.published_le, h.begun_le.trans h'.begun_le,
    h.stamped_le.trans h'.stamped_le, h.log_grows.trans h'.log_grows⟩

theorem inv_create [Zero α] (R : RingSpec) : Inv R (Producer.create : Producer α) :=
  ⟨0, 0, .idle rfl rfl, valid_create R⟩

/-- Rebuild invariant and growth from the phases on both sides of a step. -/
theorem inv_grows_of_phase {R : RingSpec} {p p' : Producer α} {B T B' T' : ℕ}
    (h : Phase R p B T) (h' : Phase R p' B' T') (hv : Valid R p'.mem p'.log B' T')
    (hpub : published p ≤ published p') (hB : B ≤ B') (hT : T ≤ T')
    (hlog : p.log <+: p'.log) : Inv R p' ∧ Grows R p p' := by
  obtain ⟨hb, ht⟩ := h.counters
  obtain ⟨hb', ht'⟩ := h'.counters
  exact ⟨⟨B', T', h', hv⟩, ⟨hpub, by rw [hb, hb']; exact hB, by rw [ht, ht']; exact hT, hlog⟩⟩

/-- The first store of `append` leaves the payload stores. -/
theorem append_stores_eq (R : RingSpec) (n : ℕ) (vec : List α) (t : ℤ) :
    append_stores R n vec t =
      .seq (R.slot n) (-1) :: (payload_stores R n vec ++ closing_stores R n t) := rfl

/-- Calling `append` keeps the invariant: nothing is stored yet, but the append is on its way. -/
theorem append_step {R : RingSpec} {p p' : Producer α} {vec : List α} {t : ℤ} (h : Inv R p)
    (hs : Producer.step R (.append vec t) p = some p') : Inv R p' ∧ Grows R p p' := by
  obtain ⟨B, T, hphase, hvalid⟩ := h
  simp only [Producer.step] at hs
  split at hs
  · rename_i hguard
    obtain ⟨hempty, hdim⟩ := hguard
    cases hs
    have hpend : p.pending = [] := List.isEmpty_iff.mp hempty
    cases hphase with
    | idle _ hlog =>
      refine inv_grows_of_phase (.idle hpend hlog)
        (.loaded (vec, t) ?_ ?_ hdim rfl)
        (hvalid.log_append _) (Nat.le_refl _) (Nat.le_refl _) (Nat.le_refl _)
        (List.prefix_append _ _)
      · show (p.log ++ [(vec, t)])[published p]? = some (vec, t)
        rw [← hlog, List.getElem?_concat_length]
      · show (p.log ++ [(vec, t)]).length = published p + 1
        rw [List.length_append, hlog, List.length_singleton]
    -- in every other phase there are stores left, and the call is not made
    | loaded _ _ _ _ hpend' => rw [hpend, append_stores_eq] at hpend'; cases hpend'
    | dirty _ _ _ _ _ _ hpend' =>
      rw [hpend, closing_stores] at hpend'
      simp at hpend'
    | filled _ _ _ _ hpend' => rw [hpend] at hpend'; cases hpend'
    | sealed _ hpend' => rw [hpend] at hpend'; cases hpend'
  · cases hs

/-- Performing the next store keeps the invariant, by the store: first the mark, then the payload
and the time, then the number, then the count. -/
theorem store_step {R : RingSpec} {p p' : Producer α} (h : Inv R p)
    (hs : Producer.step R .store p = some p') : Inv R p' ∧ Grows R p p' := by
  obtain ⟨B, T, hphase, hvalid⟩ := h
  simp only [Producer.step] at hs
  split at hs
  · cases hs
  rename_i s rest hcons
  cases hs
  cases hphase with
  | idle hpend _ => rw [hpend] at hcons; cases hcons
  -- the first store marks the slot as being written
  | loaded sample hlog hlen hdim hpend =>
    rw [hpend, append_stores_eq] at hcons
    obtain ⟨rfl, rfl⟩ := List.cons.inj hcons
    refine inv_grows_of_phase (.loaded sample hlog hlen hdim hpend)
      (.dirty sample 0 (Nat.zero_le _) hlog hlen hdim rfl ?_)
      hvalid.invalidate (Nat.le_refl _) (Nat.le_succ _) (Nat.le_refl _) (List.prefix_refl _)
    intro i x hi
    exact absurd hi (Nat.not_lt_zero _)
  | dirty sample j hj hlog hlen hdim hpend hrow =>
    by_cases hjd : j < R.dim
    · -- payload word `j`
      have hjl : j < (payload_stores R (published p) sample.1).length := by
        rw [length_payload_stores, hdim]; exact hjd
      have hjs : j < sample.1.length := by rw [hdim]; exact hjd
      have hhead : (payload_stores R (published p) sample.1)[j]
          = .data (R.slot (published p)) j sample.1[j] := by
        simp only [payload_stores, List.getElem_mapIdx]
      have hsplit := hpend
      rw [List.drop_eq_getElem_cons hjl, hhead, List.cons_append, hcons] at hsplit
      obtain ⟨rfl, rfl⟩ := List.cons.inj hsplit
      refine inv_grows_of_phase (.dirty sample j hj hlog hlen hdim hpend hrow)
        (.dirty sample (j + 1) hjd hlog hlen hdim rfl ?_)
        (hvalid.write_data j _) (Nat.le_refl _) (Nat.le_refl _) (Nat.le_refl _)
        (List.prefix_refl _)
      intro i x hi hx
      show (if R.slot (published p) = R.slot (published p) ∧ i = j then sample.1[j]
        else p.mem.data (R.slot (published p)) i) = x
      by_cases hij : i = j
      · subst hij
        rw [if_pos ⟨rfl, rfl⟩]
        rw [List.getElem?_eq_getElem hjs] at hx
        exact Option.some.inj hx
      · rw [if_neg (fun hcon => hij hcon.2)]
        exact hrow i x (by omega) hx
    · -- all words are written: this store is the timestamp
      have hdrop : (payload_stores R (published p) sample.1).drop j = [] := by
        rw [List.drop_eq_nil_iff, length_payload_stores, hdim]; omega
      have hsplit := hpend
      rw [hdrop, closing_stores, List.nil_append, hcons] at hsplit
      obtain ⟨rfl, rfl⟩ := List.cons.inj hsplit
      refine inv_grows_of_phase (.dirty sample j hj hlog hlen hdim hpend hrow)
        (.filled sample hlog hlen ⟨?_, hdim, ?_⟩ rfl)
        (hvalid.write_t_ns _) (Nat.le_refl _) (Nat.le_refl _) (Nat.le_refl _)
        (List.prefix_refl _)
      · show (if R.slot (published p) = R.slot (published p) then sample.2 else _) = sample.2
        rw [if_pos rfl]
      · intro i x hx
        have hi : i < sample.1.length := (List.getElem?_eq_some_iff.mp hx).1
        exact hrow i x (by omega) hx
  | filled sample hlog hlen hholds hpend =>
    rw [hpend] at hcons
    obtain ⟨rfl, rfl⟩ := List.cons.inj hcons
    exact inv_grows_of_phase (.filled sample hlog hlen hholds hpend) (.sealed hlen rfl)
      (hvalid.write_stamp hlog hholds) (Nat.le_refl _) (Nat.le_refl _) (Nat.le_succ _)
      (List.prefix_refl _)
  | sealed hlen hpend =>
    rw [hpend] at hcons
    obtain ⟨rfl, rfl⟩ := List.cons.inj hcons
    exact inv_grows_of_phase (.sealed hlen hpend) (.idle rfl hlen) (hvalid.publish _)
      (Nat.le_succ _) (Nat.le_refl _) (Nat.le_refl _) (List.prefix_refl _)

/-- One micro-step keeps the invariant and moves the counters forward. -/
theorem inv_step {R : RingSpec} {p p' : Producer α} (h : Inv R p) (hs : Step R p p') :
    Inv R p' ∧ Grows R p p' := by
  obtain ⟨act, hact⟩ := hs
  cases act with
  | append vec t => exact append_step h hact
  | store => exact store_step h hact

/-- So does any number of them. -/
theorem inv_reach {R : RingSpec} {p p' : Producer α} (h : Inv R p)
    (hs : ReflTransGen (Step R) p p') : Inv R p' ∧ Grows R p p' := by
  induction hs with
  | refl => exact ⟨h, Grows.refl R p⟩
  | tail _ hstep ih =>
    obtain ⟨hinv, hgrow⟩ := ih
    obtain ⟨hinv', hgrow'⟩ := inv_step hinv hstep
    exact ⟨hinv', hgrow.trans hgrow'⟩

theorem inv_of_reachable [Zero α] {R : RingSpec} {p : Producer α} (h : Reachable R p) :
    Inv R p := (inv_reach (inv_create R) h).1

/-! ## What readers use -/

theorem Inv.bounds {R : RingSpec} {p : Producer α} (h : Inv R p) :
    published p ≤ stamped p ∧ stamped p ≤ begun R p ∧ begun R p ≤ published p + 1 ∧
      begun R p ≤ p.log.length := by
  obtain ⟨B, T, hphase, -⟩ := h
  obtain ⟨rfl, rfl⟩ := hphase.counters
  exact hphase.bounds

/-- At most one sample is in the log and not yet published. -/
theorem Inv.log_length_le {R : RingSpec} {p : Producer α} (h : Inv R p) :
    p.log.length ≤ published p + 1 := by
  obtain ⟨B, T, hphase, -⟩ := h
  cases hphase <;> omega

/-- **Stamps.** Slot `s` carries index `g` exactly when `g` lives there, has been
stamped, and has not begun to be recycled. -/
theorem stamp_iff {R : RingSpec} {p : Producer α} (h : Inv R p) (s g : ℕ) :
    p.mem.seq s = (g : ℤ) ↔
      R.slot g = s ∧ g < stamped p ∧ begun R p ≤ g + R.capacity := by
  obtain ⟨B, T, hphase, hvalid⟩ := h
  obtain ⟨rfl, rfl⟩ := hphase.counters
  exact hvalid.stamp s g

/-- A published sample whose slot shows another stamp is being recycled. -/
theorem recycled_of_stamp_ne {R : RingSpec} {p : Producer α} (h : Inv R p) {g : ℕ}
    (hpub : g < published p) (hne : p.mem.seq (R.slot g) ≠ (g : ℤ)) :
    g + R.capacity < begun R p := by
  by_contra hcon
  exact hne ((stamp_iff h _ g).mpr ⟨rfl, hpub.trans_le h.bounds.1, by omega⟩)

theorem holds_of_stamp {R : RingSpec} {p : Producer α} (h : Inv R p) {g : ℕ}
    (hg : p.mem.seq (R.slot g) = (g : ℤ)) :
    ∃ sample, p.log[g]? = some sample ∧ Holds R p.mem (R.slot g) sample := by
  obtain ⟨-, hT, hB⟩ := (stamp_iff h _ g).mp hg
  obtain ⟨B, T, hphase, hvalid⟩ := h
  obtain ⟨rfl, rfl⟩ := hphase.counters
  exact hvalid.payload g hT hB

theorem getElem?_of_grows {β : Type} {l l' : List β} (h : l <+: l') {i : ℕ} {x : β}
    (hx : l[i]? = some x) : l'[i]? = some x := by
  obtain ⟨t, rfl⟩ := h
  rw [List.getElem?_append_left (List.getElem?_eq_some_iff.mp hx).1, hx]

/-- **No torn reads.** If a slot carries `g` at two moments, then it holds append
`g`'s sample at every moment between them. -/
theorem row_between {R : RingSpec} {m₁ m m₂ : Producer α} {g : ℕ} (h : Inv R m₁)
    (h₁ : ReflTransGen (Step R) m₁ m) (h₂ : ReflTransGen (Step R) m m₂)
    (hg₁ : m₁.mem.seq (R.slot g) = (g : ℤ)) (hg₂ : m₂.mem.seq (R.slot g) = (g : ℤ)) :
    ∃ sample, m₁.log[g]? = some sample ∧ Holds R m.mem (R.slot g) sample := by
  obtain ⟨hinv, hgrow₁⟩ := inv_reach h h₁
  obtain ⟨hinv₂, hgrow₂⟩ := inv_reach hinv h₂
  -- stamped by the first moment, not recycled by the second: both hold in between
  have hT := ((stamp_iff h _ g).mp hg₁).2.1
  have hB := ((stamp_iff hinv₂ _ g).mp hg₂).2.2
  have hmid : m.mem.seq (R.slot g) = (g : ℤ) :=
    (stamp_iff hinv _ g).mpr
      ⟨rfl, hT.trans_le hgrow₁.stamped_le, hgrow₂.begun_le.trans hB⟩
  obtain ⟨sample₁, hlog₁, -⟩ := holds_of_stamp h hg₁
  obtain ⟨sample, hlog, hholds⟩ := holds_of_stamp hinv hmid
  have hsame : m.log[g]? = some sample₁ := getElem?_of_grows hgrow₁.log_grows hlog₁
  rw [hsame] at hlog
  cases hlog
  exact ⟨sample₁, hlog₁, hholds⟩

end DualFlexivControl.Ring
