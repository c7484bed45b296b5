/-
`control/channel.py`: the cursor over the reliable command channel.

The channel is a ring like any other; what makes it reliable is the consumer. A
`CommandCursor` remembers the last index it handed out, `drain_new` returns what is
newer and logs a loss when the oldest row still available is not the next one.

The account a cursor keeps is exact with one exception. Its baseline is `-1` when
the constructor read nothing, and `drain_new` skips the loss check there, so a ring
that laps the cursor before its first successful drain loses commands in silence, and
[`ReliableChannel`] fails. Away from that case ([`NotLapped`]) every command behind
the cursor was returned once, in order, or is inside a logged gap, and the step that
keeps it so is [`Tracks.drain`].

"Since the cursor was created" needs a moment to be since: it is the write count
the constructor's own read was based on, some state between its first and its last
load.
-/
import DualFlexivControl.Streams.Last
import Mathlib.Data.Finset.Card
import Mathlib.Order.Interval.Finset.Nat
import Mathlib.Algebra.Order.Ring.Int
import Mathlib.Algebra.BigOperators.Intervals

set_option autoImplicit false

open Interleave Relation DualFlexivControl.Ring

namespace DualFlexivControl.Control

variable {α : Type}

/-! ## The cursor -/

/-- `CommandCursor`: the index of the last command handed out, `-1` for none. -/
structure CommandCursor where
  last_seq : ℤ
  deriving DecidableEq

/-- The arguments of the error `drain_new` logs. -/
structure LostCommands where
  count : ℤ
  cursor : ℤ
  oldest : ℕ
  deriving DecidableEq

/-- What one `drain_new` does: the rows it returns, each with the ring index it was
read from, and the loss it logs. -/
structure Drained (α : Type) where
  rows : List (List α × ℕ)
  lost : Option LostCommands
  deriving DecidableEq

namespace CommandCursor

/-- `int(head.seq[-1]) if head.n else -1`. -/
def baseline (head : Samples α) : CommandCursor :=
  match head.seq.getLast? with
  | some seq => ⟨seq⟩
  | none => ⟨-1⟩

/-- `CommandCursor.__init__`. -/
def init (R : RingSpec) : Reader α CommandCursor := do
  let head ← latest R
  return baseline head

/-- What `drain_new` makes of the batch it read. -/
def absorb (c : CommandCursor) (batch : Samples α) : Drained α × CommandCursor :=
  match batch.seq.head?, batch.seq.getLast? with
  | some first, some last =>
    ({ rows := (batch.data.zip batch.seq).filter (fun r => c.last_seq < (r.2 : ℤ))
       lost := if 0 ≤ c.last_seq ∧ c.last_seq + 1 < (first : ℤ) then
          some ⟨first - c.last_seq - 1, c.last_seq, first⟩ else none },
      ⟨last⟩)
  | _, _ => (⟨[], none⟩, c)

/-- `CommandCursor.drain_new`. -/
def drain_new (R : RingSpec) (c : CommandCursor) : Reader α (Drained α × CommandCursor) := do
  let batch ← last R R.capacity
  return c.absorb batch

/-- The index `drain_new` expects next. -/
def next (c : CommandCursor) : ℕ := (c.last_seq + 1).toNat

end CommandCursor

/-! ## Runs of one consumer -/

/-- A consumer's cursor with everything it has been handed and every loss logged. -/
structure Consumer (α : Type) where
  cursor : CommandCursor
  returned : List (List α × ℕ)
  losses : List LostCommands

/-- The ring indices handed out so far. -/
def Consumer.indices (s : Consumer α) : List ℕ := s.returned.map Prod.snd

/-- The states a consumer and its ring can be in after some drains. `allow` says
which drains are considered: it sees the cursor a drain started from and the ring
when it ended. -/
inductive Consumes (R : RingSpec) (allow : CommandCursor → Producer α → Prop)
    (p₁ : Producer α) (c₀ : CommandCursor) : Producer α → Consumer α → Prop where
  | created : Consumes R allow p₁ c₀ p₁ ⟨c₀, [], []⟩
  | drained {q q' : Producer α} {s : Consumer α} {d : Drained α} {c' : CommandCursor}
      (hs : Consumes R allow p₁ c₀ q s)
      (hd : Exec (Step R) view q (s.cursor.drain_new R) q' (d, c'))
      (hok : allow s.cursor q') :
      Consumes R allow p₁ c₀ q' ⟨c', s.returned ++ d.rows, s.losses ++ d.lost.toList⟩

/-- The books of a consumer that has settled the indices from `b` up to `n`: it
returned `indices`, in order; whatever it did not return lies in a logged gap, never
both; and the logged counts add up to the commands never returned. -/
structure Ledger (b n : ℕ) (indices : List ℕ) (losses : List LostCommands) : Prop where
  ordered : indices.Pairwise (· < ·)
  within : ∀ g ∈ indices, b ≤ g ∧ g < n
  gaps : ∀ l ∈ losses, l.oldest ≤ n
  covered : ∀ g, b ≤ g → g < n →
    g ∈ indices ∨ ∃ l ∈ losses, l.cursor < (g : ℤ) ∧ g < l.oldest
  unreturned : ∀ l ∈ losses, ∀ g : ℕ, l.cursor < (g : ℤ) → g < l.oldest → g ∉ indices
  counted : (losses.map LostCommands.count).sum =
    (((Finset.Ico b n).filter (fun g => g ∉ indices)).card : ℤ)

/-- The account of a consumer whose cursor was created at write count `b`: the books
balance up to the cursor, and each row returned is the command of its index. -/
structure Accounted (b : ℕ) (p : Producer α) (s : Consumer α) : Prop where
  ledger : Ledger b s.cursor.next s.indices s.losses
  rows : ∀ r ∈ s.returned, ∃ t, p.log[r.2]? = some (r.1, t)

/-- A drain that is not lapped in every one of its passes settles everything
published before it started. -/
def Settles (R : RingSpec) (q : Producer α) (c : CommandCursor) : Prop :=
  ∀ q' d c', Exec (Step R) view q (c.drain_new R) q' (d, c') →
    begun R q' ≤ published q + read_retries * (R.capacity - 1) → published q ≤ c'.next

/-- The command channel keeps its promise over every run. -/
def ReliableChannel (α : Type) [Zero α] (R : RingSpec) : Prop :=
  ∀ (p₀ p₁ : Producer α) (c : CommandCursor), Reachable R p₀ →
    Exec (Step R) view p₀ (CommandCursor.init R) p₁ c →
    ∃ m, Between (Step R) p₀ m p₁ ∧ ∀ q s, Consumes R (fun _ _ => True) p₁ c q s →
      Accounted (published m) q s ∧ Settles R q s.cursor

/-- A drain from the `-1` baseline that ended before any command posted since
creation, at write count `b`, can have been recycled. -/
def NotLapped (R : RingSpec) (b : ℕ) (c : CommandCursor) (q' : Producer α) : Prop :=
  c.last_seq = -1 → begun R q' ≤ b + R.capacity

/-! ## The books -/

/-- Nothing settled, nothing owed. -/
theorem ledger_nil {b n : ℕ} (h : n ≤ b) : Ledger b n [] [] := by
  refine ⟨.nil, fun _ hg => absurd hg List.not_mem_nil, fun _ hl => absurd hl List.not_mem_nil,
    fun _ hb hn => absurd hn (by omega), fun _ hl => absurd hl List.not_mem_nil, ?_⟩
  rw [Finset.Ico_eq_empty (by omega)]
  rfl

/-- The number of unreturned indices splits at any point between. -/
theorem card_unreturned_split (idx : List ℕ) {b n w : ℕ} (hb : b ≤ n) (hw : n ≤ w) :
    ((Finset.Ico b w).filter (fun g => g ∉ idx)).card =
      ((Finset.Ico b n).filter (fun g => g ∉ idx)).card +
        ((Finset.Ico n w).filter (fun g => g ∉ idx)).card := by
  simp only [Finset.card_filter]
  exact (Finset.sum_Ico_consecutive _ hb hw).symm

theorem card_unreturned_congr {idx idx' : List ℕ} {b n : ℕ}
    (h : ∀ g, b ≤ g → g < n → (g ∈ idx ↔ g ∈ idx')) :
    ((Finset.Ico b n).filter (fun g => g ∉ idx)).card =
      ((Finset.Ico b n).filter (fun g => g ∉ idx')).card := by
  congr 1
  refine Finset.filter_congr fun g hg => ?_
  rw [Finset.mem_Ico] at hg
  rw [h g hg.1 hg.2]

/-- The indices behind the cursor once the window from `a` to `w` is returned. -/
theorem mem_append_window (idx : List ℕ) {a w : ℕ} (haw : a ≤ w) (g : ℕ) :
    g ∈ idx ++ List.range' a (w - a) ↔ g ∈ idx ∨ (a ≤ g ∧ g < w) := by
  rw [List.mem_append, List.mem_range'_1]
  have hend : a + (w - a) = w := by omega
  rw [hend]

/-- Returning the window from `a` to `w` leaves the gap below it unreturned, and nothing
else that was not so before. -/
theorem card_unreturned_window {b n a w : ℕ} {idx : List ℕ} (hidx : ∀ g ∈ idx, g < n)
    (hb : b ≤ n) (hna : n ≤ a) (haw : a ≤ w) :
    ((Finset.Ico b w).filter (fun g => g ∉ idx ++ List.range' a (w - a))).card =
      ((Finset.Ico b n).filter (fun g => g ∉ idx)).card + (a - n) := by
  have hmem := fun g => mem_append_window idx haw g
  -- below `n` the window changes nothing
  have hlow := @card_unreturned_congr (idx ++ List.range' a (w - a)) idx b n fun g _ hgn => by
    rw [hmem]
    exact ⟨fun hg => hg.resolve_right (by omega), .inl⟩
  -- between `n` and `a` nothing was ever returned
  have hmid := @card_unreturned_congr (idx ++ List.range' a (w - a)) [] n a fun g hg hga => by
    rw [hmem]
    refine ⟨?_, fun hnil => by cases hnil⟩
    rintro (hg' | hg')
    · have := hidx g hg'
      omega
    · omega
  have hgapcard : ((Finset.Ico n a).filter (fun g => g ∉ ([] : List ℕ))).card = a - n := by
    simp only [List.not_mem_nil, not_false_eq_true, Finset.filter_true, Nat.card_Ico]
  -- from `a` on everything is
  have htop : ((Finset.Ico a w).filter
      (fun g => g ∉ idx ++ List.range' a (w - a))).card = 0 := by
    rw [Finset.card_eq_zero, Finset.filter_eq_empty_iff]
    intro g hg
    rw [Finset.mem_Ico] at hg
    exact not_not_intro ((hmem g).mpr (.inr hg))
  rw [card_unreturned_split _ hb (hna.trans haw), card_unreturned_split _ hna haw, hlow, hmid,
    htop, hgapcard]
  omega

/-- Returning the window from `a` to `w` next, and logging the gap below it if there
is one, keeps the books. -/
theorem Ledger.extend {b n a w : ℕ} {idx : List ℕ} {losses new : List LostCommands}
    (h : Ledger b n idx losses) (hb : b ≤ n) (hna : n ≤ a) (haw : a ≤ w)
    (hnew : new = if n < a then [⟨(a : ℤ) - n, (n : ℤ) - 1, a⟩] else []) :
    Ledger b w (idx ++ List.range' a (w - a)) (losses ++ new) := by
  have hgap : ∀ l ∈ new, l.cursor = (n : ℤ) - 1 ∧ l.oldest = a := by
    intro l hl
    rw [hnew] at hl
    split at hl
    · rw [List.mem_singleton] at hl
      exact hl ▸ ⟨rfl, rfl⟩
    · cases hl
  have hmem := fun g => mem_append_window idx haw g
  refine ⟨?_, ?_, ?_, ?_, ?_, ?_⟩
  · refine List.pairwise_append.mpr ⟨h.ordered, List.pairwise_lt_range', fun x hx y hy => ?_⟩
    have hx' := (h.within x hx).2
    have hy' := (List.mem_range'_1.mp hy).1
    omega
  · intro g hg
    rcases (hmem g).mp hg with hg | hg
    · have := h.within g hg
      omega
    · omega
  · intro l hl
    rcases List.mem_append.mp hl with hl | hl
    · have := h.gaps l hl
      omega
    · rw [(hgap l hl).2]
      exact haw
  · -- below `n` by the old books, up to `a` by the new gap, from there on by the window
    intro g hbg hgw
    rcases Nat.lt_or_ge g n with hgn | hgn
    · rcases h.covered g hbg hgn with hg | ⟨l, hl, hcov⟩
      · exact .inl (List.mem_append_left _ hg)
      · exact .inr ⟨l, List.mem_append_left _ hl, hcov⟩
    · rcases Nat.lt_or_ge g a with hga | hga
      · refine .inr ⟨⟨(a : ℤ) - n, (n : ℤ) - 1, a⟩, List.mem_append_right _ ?_, ?_, hga⟩
        · rw [hnew, if_pos (by omega)]
          exact List.mem_singleton.mpr rfl
        · show (n : ℤ) - 1 < g
          omega
      · exact .inl ((hmem g).mpr (.inr ⟨hga, hgw⟩))
  · intro l hl g hlo hhi hg
    rcases List.mem_append.mp hl with hl | hl
    · -- an old gap ends at or before `n`, where the new window has not started
      have hold := h.gaps l hl
      rcases (hmem g).mp hg with hg | hg
      · exact h.unreturned l hl g hlo hhi hg
      · omega
    · obtain ⟨hcur, hold⟩ := hgap l hl
      rcases (hmem g).mp hg with hg | hg
      · have := (h.within g hg).2
        omega
      · omega
  · have hsum : (new.map LostCommands.count).sum = (a : ℤ) - n := by
      rw [hnew]
      split
      · simp only [List.map_cons, List.map_nil, List.sum_cons, List.sum_nil, Int.add_zero]
      · simp only [List.map_nil, List.sum_nil]
        omega
    rw [List.map_append, List.sum_append, h.counted, hsum,
      card_unreturned_window (fun g hg => (h.within g hg).2) hb hna haw]
    omega

/-! ## One drain -/

/-- The cursor that has just handed out everything below `w`. -/
theorem CommandCursor.next_at (w : ℕ) : CommandCursor.next ⟨(w : ℤ) - 1⟩ = w := by
  show ((w : ℤ) - 1 + 1).toNat = w
  omega

theorem CommandCursor.lt_iff_next_le {c : CommandCursor} (hc : -1 ≤ c.last_seq) (g : ℕ) :
    c.last_seq < (g : ℤ) ↔ c.next ≤ g := by
  unfold CommandCursor.next
  omega

/-- What `drain_new` makes of a batch that reaches from `lo` up to write count `w`. -/
theorem absorb_spec {c : CommandCursor} {batch : Samples α} {lo w : ℕ}
    (hc : -1 ≤ c.last_seq) (hnext : c.next ≤ w) (hlen : batch.data.length = batch.seq.length)
    (hseq : batch.seq = List.range' lo (w - lo)) (hlo : lo < w) :
    (c.absorb batch).1.rows.map Prod.snd =
        List.range' (max lo c.next) (w - max lo c.next) ∧
      (∀ r ∈ (c.absorb batch).1.rows, r ∈ batch.data.zip batch.seq) ∧
      (c.absorb batch).2 = ⟨w - 1⟩ ∧
      (c.absorb batch).1.lost = if 0 ≤ c.last_seq ∧ c.next < lo then
        some ⟨(lo : ℤ) - c.next, (c.next : ℤ) - 1, lo⟩ else none := by
  have hhead : batch.seq.head? = some lo := by
    rw [hseq, List.head?_range', if_neg (by omega)]
  have hlast : batch.seq.getLast? = some (w - 1) := by
    rw [hseq, List.getLast?_range', if_neg (by omega)]
    congr 1
    omega
  simp only [CommandCursor.absorb, hhead, hlast]
  refine ⟨?_, fun r hr => List.mem_of_mem_filter hr, ?_, ?_⟩
  · have hmap : (fun r : List α × ℕ => decide (c.last_seq < (r.2 : ℤ))) =
        (fun g => decide (c.next ≤ g)) ∘ Prod.snd := by
      funext r
      exact decide_eq_decide.mpr (CommandCursor.lt_iff_next_le hc r.2)
    rw [hmap, ← List.filter_map, List.map_snd_zip (by omega), hseq, filter_range'_ge hnext]
  · congr 1
    omega
  · have hguard : (0 ≤ c.last_seq ∧ c.last_seq + 1 < (lo : ℤ)) ↔
        (0 ≤ c.last_seq ∧ c.next < lo) := by
      unfold CommandCursor.next
      omega
    by_cases hgap : 0 ≤ c.last_seq ∧ c.next < lo
    · rw [if_pos hgap, if_pos (hguard.mpr hgap)]
      have hcur : (c.next : ℤ) = c.last_seq + 1 := by
        unfold CommandCursor.next
        omega
      rw [hcur]
      congr 2
      · omega
      · omega
    · rw [if_neg hgap, if_neg (fun h => hgap (hguard.mp h))]

/-- How a drain between `q` and `q'` can end. It leaves the cursor alone when nothing
was ever published or when it was lapped in each of its passes; otherwise it settles
everything up to a write count `w` the ring had meanwhile, from the oldest row `lo`
that survived. -/
inductive DrainSpec (R : RingSpec) (c : CommandCursor) (q q' : Producer α) (d : Drained α)
    (c' : CommandCursor) : Prop where
  | quiet (hd : d = ⟨[], none⟩) (hc : c' = c)
      (hwhy : published q = 0 ∨ published q + read_retries * (R.capacity - 1) < begun R q')
  | read (lo w : ℕ) (hlo : lo < w) (hpub : published q ≤ w) (hpub' : w ≤ published q')
      (hidx : d.rows.map Prod.snd = List.range' (max lo c.next) (w - max lo c.next))
      (hrows : ∀ r ∈ d.rows, ∃ t, q'.log[r.2]? = some (r.1, t))
      (hcur : c' = ⟨w - 1⟩)
      (hlost : d.lost = if 0 ≤ c.last_seq ∧ c.next < lo then
        some ⟨(lo : ℤ) - c.next, (c.next : ℤ) - 1, lo⟩ else none)
      (hfresh : begun R q ≤ lo + R.capacity)
      (hkept : ∀ g, g < w → begun R q' ≤ g + R.capacity → lo ≤ g)

theorem drain_new_spec {R : RingSpec} {c c' : CommandCursor} {q q' : Producer α}
    {d : Drained α} (hinv : Inv R q) (hc : -1 ≤ c.last_seq) (hle : c.next ≤ published q)
    (h : Exec (Step R) view q (c.drain_new R) q' (d, c')) : DrainSpec R c q q' d c' := by
  unfold CommandCursor.drain_new at h
  obtain ⟨m', batch, hlast, h⟩ := exec_bind.mp h
  obtain ⟨hend, heq⟩ := exec_pure.mp h
  obtain ⟨rfl, rfl⟩ : d = (c.absorb batch).1 ∧ c' = (c.absorb batch).2 :=
    Prod.mk.inj heq
  have hlast := hlast.tail hend
  rcases last_window_spec hinv hlast with ⟨rfl, hwhy⟩ |
    ⟨lo, w, hlo, hpub, hpub', hseq, hrowsfrom, hfresh, hkept⟩
  · exact .quiet rfl rfl hwhy
  · obtain ⟨hidx, hrows, hcur, hlost⟩ := absorb_spec hc (hle.trans hpub)
      hrowsfrom.data_length hseq hlo
    refine .read lo w hlo hpub hpub' hidx ?_ hcur hlost hfresh hkept
    intro r hr
    obtain ⟨i, hi⟩ := List.mem_iff_getElem?.mp (hrows r hr)
    obtain ⟨hdata, hg⟩ := List.getElem?_zip_eq_some.mp hi
    obtain ⟨sample, hlog, hrow, -⟩ := hrowsfrom.row i r.2 hg
    have hfst : r.1 = sample.1 := Option.some.inj (hdata.symm.trans hrow)
    exact ⟨sample.2, by rw [hlog, hfst]⟩

/-! ## The run -/

/-- What creation leaves behind, at a write count `b` its own read was based on: the
head of the ring as the cursor, or the `-1` baseline because nothing was published,
or because even the newest row was being recycled under each pass. -/
theorem init_spec {R : RingSpec} {p₀ p₁ : Producer α} {c : CommandCursor} (hinv : Inv R p₀)
    (h : Exec (Step R) view p₀ (CommandCursor.init R) p₁ c) :
    ∃ m, Between (Step R) p₀ m p₁ ∧
      ((0 < published m ∧ c.last_seq = published m - 1) ∨
       (c.last_seq = -1 ∧ (published m = 0 ∨ published m + R.capacity ≤ begun R p₁))) := by
  unfold CommandCursor.init at h
  obtain ⟨m', head, hlast, h⟩ := exec_bind.mp h
  obtain ⟨hend, rfl⟩ := exec_pure.mp h
  have hlast := hlast.tail hend
  rcases latest_spec hinv hlast with ⟨rfl, hzero | hgave⟩ | ⟨m, sample, hm, hpos, -, hseq, -, -⟩
  · exact ⟨p₀, ⟨.refl, hlast.reach⟩, .inr ⟨rfl, .inl hzero⟩⟩
  · rcases hgave with h0 | ⟨-, m, hm, -, hB⟩
    · exact absurd h0 (by decide)
    · exact ⟨m, hm, .inr ⟨rfl, .inr hB⟩⟩
  · refine ⟨m, hm, .inl ⟨hpos, ?_⟩⟩
    simp only [CommandCursor.baseline, hseq, List.getLast?_singleton]
    omega

/-- The invariant of a consumer run. At the `-1` baseline nothing has been handed out
yet, and every sample published before creation is out of reach: there is none, or
even the newest has begun to be recycled. -/
structure Tracks (R : RingSpec) (b : ℕ) (q : Producer α) (s : Consumer α) : Prop where
  inv : Inv R q
  cursor_ge : -1 ≤ s.cursor.last_seq
  next_le : s.cursor.next ≤ published q
  baseline : s.cursor.last_seq = -1 → s.returned = [] ∧ s.losses = [] ∧
    (b = 0 ∨ b + R.capacity ≤ begun R q)
  ahead : s.cursor.last_seq ≠ -1 → b ≤ s.cursor.next
  accounted : Accounted b q s

theorem Accounted.mono {b : ℕ} {p p' : Producer α} {s : Consumer α} (h : Accounted b p s)
    (hlog : p.log <+: p'.log) : Accounted b p' s := by
  refine ⟨h.ledger, fun r hr => ?_⟩
  obtain ⟨t, ht⟩ := h.rows r hr
  exact ⟨t, getElem?_of_grows hlog ht⟩

theorem Tracks.mono {R : RingSpec} {b : ℕ} {q q' : Producer α} {s : Consumer α}
    (h : Tracks R b q s) (hreach : ReflTransGen (Step R) q q') : Tracks R b q' s := by
  obtain ⟨hinv, hgrow⟩ := inv_reach h.inv hreach
  refine ⟨hinv, h.cursor_ge, h.next_le.trans hgrow.published_le, fun hb => ?_, h.ahead,
    h.accounted.mono hgrow.log_grows⟩
  obtain ⟨hr, hl, hbase⟩ := h.baseline hb
  exact ⟨hr, hl, hbase.imp_right fun hB => hB.trans hgrow.begun_le⟩

/-- Both baselines come to the same: before a drain that reads from `lo` on, the books
are settled up to some `e`, the window starts at `max lo e`, and the gap between is what
is logged. -/
theorem Tracks.settled_up_to {R : RingSpec} {b lo w : ℕ} {q q' : Producer α} {s : Consumer α}
    {lost : Option LostCommands} (h : Tracks R b q s) (hok : NotLapped R b s.cursor q')
    (hlo : lo < w) (hpub : published q ≤ w)
    (hlost : lost = if 0 ≤ s.cursor.last_seq ∧ s.cursor.next < lo then
      some ⟨(lo : ℤ) - s.cursor.next, (s.cursor.next : ℤ) - 1, lo⟩ else none)
    (hfresh : begun R q ≤ lo + R.capacity)
    (hkept : ∀ g, g < w → begun R q' ≤ g + R.capacity → lo ≤ g) :
    ∃ e, b ≤ e ∧ e ≤ w ∧ Ledger b e s.indices s.losses ∧ max lo s.cursor.next = max lo e ∧
      lost.toList = if e < max lo e then
        [⟨((max lo e : ℕ) : ℤ) - e, (e : ℤ) - 1, max lo e⟩] else [] := by
  have hge := h.cursor_ge
  have hnle := h.next_le
  by_cases hb : s.cursor.last_seq = -1
  · -- from the baseline nothing is missing below `lo`, so that no gap goes unlogged
    obtain ⟨hret, hlos, hbase⟩ := h.baseline hb
    have hzero : s.cursor.next = 0 := by
      unfold CommandCursor.next
      omega
    have hlob : lo ≤ b := by
      refine hkept b (by omega) (hok hb)
    have hblo : lo = b := by omega
    refine ⟨b, le_rfl, by omega, ?_, by omega, ?_⟩
    · have hidx0 : s.indices = [] := by
        unfold Consumer.indices
        rw [hret, List.map_nil]
      rw [hidx0, hlos]
      exact ledger_nil le_rfl
    · rw [hlost, if_neg (by omega), if_neg (by omega)]
      rfl
  · refine ⟨s.cursor.next, h.ahead hb, by omega, h.accounted.ledger, rfl, ?_⟩
    rw [hlost]
    by_cases hgap : s.cursor.next < lo
    · rw [if_pos ⟨by omega, hgap⟩, if_pos (by omega), max_eq_left hgap.le]
      rfl
    · rw [if_neg (fun hcon => hgap hcon.2), if_neg (by omega)]
      rfl

/-- The step: a drain keeps the books, unless it starts at the baseline and is
lapped. -/
theorem Tracks.drain {R : RingSpec} {b : ℕ} {q q' : Producer α} {s : Consumer α}
    {d : Drained α} {c' : CommandCursor} (h : Tracks R b q s)
    (hd : Exec (Step R) view q (s.cursor.drain_new R) q' (d, c'))
    (hok : NotLapped R b s.cursor q') :
    Tracks R b q' ⟨c', s.returned ++ d.rows, s.losses ++ d.lost.toList⟩ := by
  obtain ⟨hinv', hgrow⟩ := inv_reach h.inv hd.reach
  have hmono := h.mono hd.reach
  cases drain_new_spec h.inv h.cursor_ge h.next_le hd with
  | quiet hdd hc _ =>
    subst hdd hc
    simpa only [Option.toList_none, List.append_nil] using hmono
  | read lo w hlo hpub hpub' hidx hrows hcur hlost hfresh hkept =>
    subst hcur
    have hnext := CommandCursor.next_at w
    -- what was read is a window, which extends the ledger from where it was settled
    obtain ⟨e, hbe, hew, hledger, hmax, hloss⟩ :=
      h.settled_up_to hok hlo hpub hlost hfresh hkept
    rw [hmax] at hidx
    have hextend := hledger.extend hbe (le_max_right lo e) (max_le hlo.le hew) hloss
    have hindices : Consumer.indices (⟨⟨(w : ℤ) - 1⟩, s.returned ++ d.rows,
        s.losses ++ d.lost.toList⟩ : Consumer α) =
        s.indices ++ List.range' (max lo e) (w - max lo e) := by
      unfold Consumer.indices
      rw [List.map_append, hidx]
    refine ⟨hinv', ?_, ?_, ?_, ?_, ⟨?_, ?_⟩⟩
    · show -1 ≤ (w : ℤ) - 1
      omega
    · rw [hnext]
      exact hpub'
    · intro (hcon : (w : ℤ) - 1 = -1)
      omega
    · intro _
      rw [hnext]
      omega
    · rw [hindices, hnext]
      exact hextend
    · intro r hr
      rcases List.mem_append.mp hr with hr | hr
      · exact hmono.accounted.rows r hr
      · exact hrows r hr

/-- A fresh cursor starts with clean books: it stands behind what has been published, or at the
baseline where nothing readable has. -/
theorem tracks_created {R : RingSpec} {p₁ : Producer α} {c : CommandCursor} {b : ℕ}
    (hinv : Inv R p₁) (hb : b ≤ published p₁)
    (hc : (0 < b ∧ c.last_seq = b - 1) ∨
      (c.last_seq = -1 ∧ (b = 0 ∨ b + R.capacity ≤ begun R p₁))) :
    Tracks R b p₁ ⟨c, [], []⟩ := by
  have hnext : c.next ≤ b := by
    unfold CommandCursor.next
    omega
  refine ⟨hinv, ?_, hnext.trans hb, fun hcur => ⟨rfl, rfl, ?_⟩, fun hcur => ?_,
    ⟨ledger_nil hnext, fun r hr => absurd hr List.not_mem_nil⟩⟩
  · show -1 ≤ c.last_seq
    omega
  · have hcur : c.last_seq = -1 := hcur
    rcases hc with hc | hc
    · omega
    · exact hc.2
  · have hcur : c.last_seq ≠ -1 := hcur
    show b ≤ c.next
    unfold CommandCursor.next
    omega

/-- The run: books stay balanced along every run of drains that are not lapped at
the baseline. -/
theorem tracks_of_consumes {R : RingSpec} {b : ℕ} {p₁ q : Producer α} {c : CommandCursor}
    {s : Consumer α} (h₀ : Tracks R b p₁ ⟨c, [], []⟩)
    (h : Consumes R (NotLapped R b) p₁ c q s) : Tracks R b q s := by
  induction h with
  | created => exact h₀
  | drained _ hd hok ih => exact ih.drain hd hok

/-- Everything published before a drain that is not lapped is behind the cursor after
it. -/
theorem settles_of {R : RingSpec} {q : Producer α} {c : CommandCursor} (hinv : Inv R q)
    (hge : -1 ≤ c.last_seq) (hle : c.next ≤ published q) : Settles R q c := by
  intro q' d c' hd hlap
  cases drain_new_spec hinv hge hle hd with
  | quiet _ _ hwhy => omega
  | read lo w _ hpub _ _ _ hcur _ _ _ =>
    rw [hcur, CommandCursor.next_at]
    exact hpub

/-! ## Commands that are still there

What a lapped ring loses is lost; but a command that has not begun to be recycled cannot
be missed, not even at the baseline. This needs no condition on the run. -/

/-- The weaker invariant of any run: rows are the commands of their indices, and a
command behind the cursor whose slot is still its own has been returned. -/
structure Follows (R : RingSpec) (b : ℕ) (q : Producer α) (s : Consumer α) : Prop where
  inv : Inv R q
  cursor_ge : -1 ≤ s.cursor.last_seq
  next_le : s.cursor.next ≤ published q
  rows : ∀ r ∈ s.returned, ∃ t, q.log[r.2]? = some (r.1, t)
  held : ∀ i, b ≤ i → i < s.cursor.next → begun R q ≤ i + R.capacity → i ∈ s.indices

theorem Follows.mono {R : RingSpec} {b : ℕ} {q q' : Producer α} {s : Consumer α}
    (h : Follows R b q s) (hreach : ReflTransGen (Step R) q q') : Follows R b q' s := by
  obtain ⟨hinv, hgrow⟩ := inv_reach h.inv hreach
  refine ⟨hinv, h.cursor_ge, h.next_le.trans hgrow.published_le, fun r hr => ?_,
    fun i hb hi hB => h.held i hb hi (hgrow.begun_le.trans hB)⟩
  obtain ⟨t, ht⟩ := h.rows r hr
  exact ⟨t, getElem?_of_grows hgrow.log_grows ht⟩

theorem Follows.drain {R : RingSpec} {b : ℕ} {q q' : Producer α} {s : Consumer α}
    {d : Drained α} {c' : CommandCursor} (h : Follows R b q s)
    (hd : Exec (Step R) view q (s.cursor.drain_new R) q' (d, c')) :
    Follows R b q' ⟨c', s.returned ++ d.rows, s.losses ++ d.lost.toList⟩ := by
  have hmono := h.mono hd.reach
  cases drain_new_spec h.inv h.cursor_ge h.next_le hd with
  | quiet hdd hc _ =>
    subst hdd hc
    simpa only [Option.toList_none, List.append_nil] using hmono
  | read lo w hlo hpub hpub' hidx hrows hcur _ _ hkept =>
    subst hcur
    have hnext := CommandCursor.next_at w
    refine ⟨hmono.inv, ?_, ?_, ?_, ?_⟩
    · show -1 ≤ (w : ℤ) - 1
      omega
    · rw [hnext]
      exact hpub'
    · intro r hr
      rcases List.mem_append.mp hr with hr | hr
      · exact hmono.rows r hr
      · exact hrows r hr
    · intro i hb hi hB
      rw [hnext] at hi
      unfold Consumer.indices
      rw [List.map_append, hidx]
      by_cases hold : i < s.cursor.next
      · exact List.mem_append_left _ (hmono.held i hb hold hB)
      · -- not handed out before, and the batch reaches down to it
        have hkept := hkept i hi hB
        exact List.mem_append_right _ (List.mem_range'_1.mpr (by omega))

/-- In any run at all, a command whose slot has not begun to be recycled is returned
once the cursor is past it. -/
theorem follows_of_consumes {R : RingSpec} {b : ℕ} {p₁ q : Producer α} {c : CommandCursor}
    {allow : CommandCursor → Producer α → Prop} {s : Consumer α}
    (h₀ : Tracks R b p₁ ⟨c, [], []⟩) (h : Consumes R allow p₁ c q s) : Follows R b q s := by
  induction h with
  | created =>
    refine ⟨h₀.inv, h₀.cursor_ge, h₀.next_le, h₀.accounted.rows, fun i hb hi _ => ?_⟩
    -- nothing from creation on is behind a fresh cursor
    rcases h₀.accounted.ledger.covered i hb hi with hmem | ⟨l, hl, -⟩
    · exact hmem
    · cases hl
  | drained _ hd _ ih => exact ih.drain hd

/-! ## The result -/

/-- **The command channel accounts for every command.** In every run whose drains from
the `-1` baseline end before the ring can have recycled a command posted since the
cursor was created, the commands returned are in publication order and none twice;
every other one behind the cursor lies in a logged gap; the logged counts are exact;
nothing posted before creation is returned; and a drain that is not lapped in all of
its passes leaves nothing older unsettled. -/
theorem drain_accounts_for_every_command [Zero α] {R : RingSpec} {p₀ p₁ : Producer α}
    {c : CommandCursor} (hp : Reachable R p₀)
    (h : Exec (Step R) view p₀ (CommandCursor.init R) p₁ c) :
    ∃ m, Between (Step R) p₀ m p₁ ∧ ∀ q s, Consumes R (NotLapped R (published m)) p₁ c q s →
      Accounted (published m) q s ∧ Settles R q s.cursor := by
  have hinv := inv_of_reachable hp
  obtain ⟨m, hm, hc⟩ := init_spec hinv h
  obtain ⟨hinvm, -⟩ := inv_reach hinv hm.1
  obtain ⟨hinv₁, hgrow⟩ := inv_reach hinvm hm.2
  have h₀ : Tracks R (published m) p₁ ⟨c, [], []⟩ :=
    tracks_created hinv₁ hgrow.published_le hc
  refine ⟨m, hm, fun q s hs => ?_⟩
  have htracks := tracks_of_consumes h₀ hs
  exact ⟨htracks.accounted, settles_of htracks.inv htracks.cursor_ge htracks.next_le⟩

/-- A cursor created on an empty two-slot ring, drained after one command. -/
theorem drain_accounts_for_every_command_two_slots :
    ∃ q, Exec (Step two_slots) view (Producer.create : Producer ℤ)
        (CommandCursor.drain_new two_slots ⟨-1⟩) q (⟨[([7], 0)], none⟩, ⟨0⟩) ∧
      Accounted 0 q ⟨⟨0⟩, [([7], 0)], []⟩ ∧ Settles two_slots q ⟨0⟩ := by
  have hinit : Exec (Step two_slots) view (Producer.create : Producer ℤ)
      (CommandCursor.init two_slots) .create ⟨-1⟩ := exec_eval _ _
  have hrun : ((CommandCursor.drain_new two_slots ⟨-1⟩).schedule (Producer.step two_slots) view
      [.append [7] 5 :: List.replicate 5 .store] (Producer.create : Producer ℤ)).map
        (fun x => (begun two_slots x.1, x.2)) = some (1, ⟨[([7], 0)], none⟩, ⟨0⟩) := rfl
  obtain ⟨q, hq, hbegun⟩ := exec_schedule_observe (begun two_slots) hrun
  obtain ⟨m, ⟨hm, hm'⟩, hall⟩ := drain_accounts_for_every_command .refl hinit
  have hzero : published m = 0 :=
    Nat.le_zero.mp (inv_reach (inv_of_reachable hm) hm').2.published_le
  rw [hzero] at hall
  refine ⟨q, hq, hall q ⟨⟨0⟩, [([7], 0)], []⟩ (.drained .created hq fun _ => ?_)⟩
  rw [hbegun]
  decide

/-! ## The command nobody hears about -/

/-- A ring of one slot. -/
def one_slot : RingSpec := ⟨1, 1, Nat.one_pos⟩

/-- The cursor is created before anything was posted. Two commands are posted; the
first drain returns the second, and neither the return value nor the log mentions
the first. -/
theorem silent_loss_one_slot : ¬ ReliableChannel ℤ one_slot := by
  intro hreliable
  have hinit : Exec (Step one_slot) view (Producer.create : Producer ℤ)
      (CommandCursor.init one_slot) .create ⟨-1⟩ := exec_eval _ _
  have hrun : ((CommandCursor.drain_new one_slot ⟨-1⟩).schedule (Producer.step one_slot) view
      [.append [7] 5 :: List.replicate 5 .store ++ .append [8] 6 :: List.replicate 5 .store]
        (Producer.create : Producer ℤ)).map
        (fun x => (published x.1, x.2)) = some (2, ⟨[([8], 1)], none⟩, ⟨1⟩) := rfl
  obtain ⟨q, hq, -⟩ := exec_schedule_observe published hrun
  obtain ⟨m, ⟨hm, hm'⟩, hall⟩ := hreliable .create .create ⟨-1⟩ .refl hinit
  have hzero : published m = 0 :=
    Nat.le_zero.mp (inv_reach (inv_of_reachable hm) hm').2.published_le
  have hs := (hall q ⟨⟨1⟩, [([8], 1)], []⟩ (.drained .created hq trivial)).1
  rw [hzero] at hs
  rcases hs.ledger.covered 0 le_rfl (by decide) with h | ⟨l, hl, -⟩
  · exact absurd h (by decide)
  · exact absurd hl List.not_mem_nil

end DualFlexivControl.Control
