/-
The policy counters of the Plotly viewer: `_consume_policy` of `plotly_dash/consumer.py` on the
`eval/policy_comm` rings of a session.

Each eval run creates the ring again under the same segment name. The viewer counts the rows from
a cursor on and starts over when the newest row it reads lies below the cursor; the ring's name,
which it compares too, never changes within a session. It therefore recognises a new ring only if
the ring has fewer rows than the old cursor at the first poll, and has any ([`Recognised`]).

A ring is the micro-step model's, so a poll may be overtaken by appends as it reads.
-/
import DualFlexivControl.Streams.Last
import Mathlib.Data.Finset.Card
import Mathlib.Data.Finset.Max

set_option autoImplicit false

namespace DualFlexivControl.Viewers

open Interleave Relation DualFlexivControl.Ring

variable {α : Type}

/-! ## The counters -/

/-- What an event says: `COMM_SENT`, `COMM_RECV`, and anything else, which is `COMM_ERROR`. -/
inductive CommKind
  | sent
  | received
  | error
  deriving DecidableEq, Repr

/-- The kind of a row, by its first entry. -/
def comm_kind [Zero α] [One α] [DecidableEq α] (row : List α) : CommKind :=
  if row.head? = some 0 then .sent else if row.head? = some 1 then .received else .error

/-- `policy_state` -/
structure PolicyState where
  ring : Option String
  next_seq : ℕ
  sent : ℕ
  received : ℕ
  errors : ℕ
  in_flight : ℕ
  deriving DecidableEq, Repr

namespace PolicyState

/-- Nothing counted, of a ring or of none. -/
def init (ring : Option String) : PolicyState := ⟨ring, 0, 0, 0, 0, 0⟩

/-- One counter. -/
def tally (s : PolicyState) : CommKind → ℕ
  | .sent => s.sent
  | .received => s.received
  | .error => s.errors

/-- Count one event. -/
def count (s : PolicyState) : CommKind → PolicyState
  | .sent => { s with sent := s.sent + 1, in_flight := 1 }
  | .received => { s with received := s.received + 1, in_flight := 0 }
  | .error => { s with errors := s.errors + 1, in_flight := 0 }

/-- The rows of a poll from the cursor on. -/
def fresh_rows (next_seq : ℕ) (samples : Samples α) : List (List α × ℕ) :=
  (samples.data.zip samples.seq).filter fun row => next_seq ≤ row.2

variable [Zero α] [One α] [DecidableEq α]

/-- Count the fresh rows and move the cursor behind the newest. -/
def count_fresh (s : PolicyState) (newest : ℕ) (samples : Samples α) : PolicyState :=
  let fresh := fresh_rows s.next_seq samples
  if fresh.isEmpty then s
  else { fresh.foldl (fun s row => s.count (comm_kind row.1)) s with next_seq := newest + 1 }

/-- What `_consume_policy` makes of the rows it read: it starts over if it takes the ring for
another one. -/
def absorb (s : PolicyState) (ring : String) (samples : Samples α) : PolicyState :=
  match samples.seq.getLast? with
  | none => s
  | some newest =>
    let s := if s.ring ≠ some ring ∨ newest + 1 < s.next_seq then init (some ring) else s
    s.count_fresh newest samples

end PolicyState

/-! ## Sessions -/

/-- The viewer's state, and the events of the ring it reads that a poll has seen. -/
structure Tracker where
  state : PolicyState
  seen : Finset ℕ

section Sessions

variable [Zero α] [One α] [DecidableEq α]

/-- `_consume_policy`, and the rows it read. -/
def consume_policy (R : RingSpec) (ring : String) (t : Tracker) :
    Reader α (Samples α × Tracker) := do
  let samples ← last R R.capacity
  return (samples, ⟨t.state.absorb ring samples, t.seen ∪ samples.seq.toFinset⟩)

/-- What a viewer and the ring it reads can get to. `allow` says which polls are considered. The
viewer goes over to a later ring of the session at any time, in whatever state that ring is. -/
inductive Session (R : RingSpec) (ring : String) (allow : Tracker → Samples α → Prop) :
    Producer α → Tracker → Prop
  | opened {q : Producer α} (hq : Reachable R q) :
    Session R ring allow q ⟨PolicyState.init none, ∅⟩
  | polled {q q' : Producer α} {t t' : Tracker} {samples : Samples α}
    (ht : Session R ring allow q t)
    (hpoll : Exec (Step R) view q (consume_policy R ring t) q' (samples, t'))
    (hallow : allow t samples) : Session R ring allow q' t'
  | next_ring {q q' : Producer α} {t : Tracker} (ht : Session R ring allow q t)
    (hq' : Reachable R q') : Session R ring allow q' ⟨t.state, ∅⟩

/-- The kind of an event of the ring. -/
def event_kind (p : Producer α) (g : ℕ) : Option CommKind :=
  (p.log[g]?).map fun sample => comm_kind sample.1

/-- After a poll from `q` to `q'` the counters are the numbers of events of this ring seen so far,
and every event that was there when the poll started has been seen or overwritten. -/
structure Correct (R : RingSpec) (q q' : Producer α) (t : Tracker) : Prop where
  events : ∀ g ∈ t.seen, event_kind q' g ≠ none
  counts : ∀ kind, t.state.tally kind = (t.seen.filter fun g => event_kind q' g = some kind).card
  in_flight : t.state.in_flight = 1 ↔
    ∃ g ∈ t.seen, (∀ g' ∈ t.seen, g' ≤ g) ∧ event_kind q' g = some .sent
  seen : ∀ g, g < published q → g ∈ t.seen ∨ g + R.capacity < begun R q'

/-- A poll that sees the first events of a ring is of a fresh viewer, or sees fewer than the
viewer has counted before. -/
def Recognised (t : Tracker) (samples : Samples α) : Prop :=
  t.seen = ∅ → t.state.ring = none ∨
    ∃ newest, samples.seq.getLast? = some newest ∧ newest + 1 < t.state.next_seq

/-- Every poll of a session whose polls are allowed leaves the counters right. -/
def CountersExact (R : RingSpec) (ring : String) (allow : Tracker → Samples α → Prop) : Prop :=
  ∀ (q q' : Producer α) (t t' : Tracker) (samples : Samples α), Session R ring allow q t →
    Exec (Step R) view q (consume_policy R ring t) q' (samples, t') → allow t samples →
      Correct R q q' t'

end Sessions

/-! ## The books of one ring -/

section Books

variable [Zero α] [One α] [DecidableEq α] {R : RingSpec} {q q' : Producer α} {s : PolicyState}
  {seen : Finset ℕ} {next : ℕ}

/-- The counters are those of the seen events; all of them lie below `next`, and what else lies
there has been overwritten. -/
structure Books (R : RingSpec) (q : Producer α) (s : PolicyState) (seen : Finset ℕ) (next : ℕ) :
    Prop where
  events : ∀ g ∈ seen, event_kind q g ≠ none
  counts : ∀ kind, s.tally kind = (seen.filter fun g => event_kind q g = some kind).card
  in_flight : s.in_flight = 1 ↔
    ∃ g ∈ seen, (∀ g' ∈ seen, g' ≤ g) ∧ event_kind q g = some .sent
  below : ∀ g ∈ seen, g < next
  covered : ∀ g, g < next → g ∈ seen ∨ g + R.capacity < begun R q

/-- Nothing is counted of a ring of which nothing was seen, and that is right, whatever the ring is
called. -/
theorem Books.init (ring : Option String) : Books R q (PolicyState.init ring) ∅ 0 where
  events g hg := absurd hg (Finset.notMem_empty g)
  counts kind := by
    rw [Finset.filter_empty, Finset.card_empty]
    rcases kind <;> rfl
  in_flight := by
    constructor
    · intro h
      exact absurd h Nat.zero_ne_one
    · rintro ⟨g, hg, _⟩
      exact absurd hg (Finset.notMem_empty g)
  below g hg := absurd hg (Finset.notMem_empty g)
  covered g hg := absurd hg (Nat.not_lt_zero g)

theorem event_kind_of_grows (h : Grows R q q') {g : ℕ} (hg : event_kind q g ≠ none) :
    event_kind q' g = event_kind q g := by
  unfold event_kind at hg ⊢
  rcases hlog : q.log[g]? with _ | sample
  · rw [hlog] at hg
    exact absurd rfl hg
  · rw [getElem?_of_grows h.log_grows hlog]

/-- The books stay right as the ring grows: what was counted stays in the log, and what was lost
stays lost. -/
theorem Books.grow (h : Books R q s seen next) (hgrows : Grows R q q') :
    Books R q' s seen next := by
  have hkind : ∀ g ∈ seen, event_kind q' g = event_kind q g := fun g hg =>
    event_kind_of_grows hgrows (h.events g hg)
  refine ⟨?_, ?_, ?_, h.below, ?_⟩
  · intro g hg
    rw [hkind g hg]
    exact h.events g hg
  · intro kind
    rw [h.counts kind]
    congr 1
    apply Finset.filter_congr
    intro g hg
    rw [hkind g hg]
  · rw [h.in_flight]
    constructor
    · rintro ⟨g, hg, hnewest, hsent⟩
      exact ⟨g, hg, hnewest, by rw [hkind g hg]; exact hsent⟩
    · rintro ⟨g, hg, hnewest, hsent⟩
      exact ⟨g, hg, hnewest, by rw [← hkind g hg]; exact hsent⟩
  · intro g hg
    exact (h.covered g hg).imp id fun hlost => Nat.lt_of_lt_of_le hlost hgrows.begun_le

/-- Overwritten events are passed over: they can no longer be read, and the books do not claim to
have seen them. -/
theorem Books.skip (h : Books R q s seen next) {next' : ℕ} (hle : next ≤ next')
    (hlost : ∀ g, next ≤ g → g < next' → g + R.capacity < begun R q) :
    Books R q s seen next' where
  events := h.events
  counts := h.counts
  in_flight := h.in_flight
  below g hg := Nat.lt_of_lt_of_le (h.below g hg) hle
  covered g hg := by
    by_cases hnext : g < next
    · exact h.covered g hnext
    · exact Or.inr (hlost g (Nat.le_of_not_lt hnext) hg)

theorem tally_count (kind kind' : CommKind) :
    (s.count kind).tally kind' = s.tally kind' + if kind = kind' then 1 else 0 := by
  rcases kind <;> rcases kind' <;> rfl

theorem in_flight_count (kind : CommKind) : (s.count kind).in_flight = 1 ↔ kind = .sent := by
  rcases kind
  · exact ⟨fun _ => rfl, fun _ => rfl⟩
  · exact ⟨fun h => absurd h Nat.zero_ne_one, fun h => nomatch h⟩
  · exact ⟨fun h => absurd h Nat.zero_ne_one, fun h => nomatch h⟩

/-- The next event is counted under its kind, and it is the one that the tally was still without. -/
theorem Books.count (h : Books R q s seen next) {kind : CommKind}
    (hkind : event_kind q next = some kind) :
    Books R q (s.count kind) (insert next seen) (next + 1) := by
  -- the event is newer than all that were seen
  have hnew : next ∉ seen := fun hmem => absurd (h.below next hmem) (Nat.lt_irrefl next)
  refine ⟨?_, ?_, ?_, ?_, ?_⟩
  · intro g hg
    rcases Finset.mem_insert.1 hg with rfl | hg
    · rw [hkind]
      exact Option.some_ne_none kind
    · exact h.events g hg
  · intro kind'
    rw [tally_count, h.counts kind', Finset.filter_insert, hkind]
    by_cases hsame : kind = kind'
    · rw [if_pos hsame, if_pos (congrArg some hsame), Finset.card_insert_of_notMem]
      exact fun hmem => hnew (Finset.mem_filter.1 hmem).1
    · rw [if_neg hsame, if_neg (fun h => hsame (Option.some.inj h)), Nat.add_zero]
  · rw [in_flight_count]
    constructor
    · rintro rfl
      refine ⟨next, Finset.mem_insert_self next seen, ?_, hkind⟩
      intro g hg
      rcases Finset.mem_insert.1 hg with rfl | hg
      · exact Nat.le_refl _
      · exact Nat.le_of_lt (h.below g hg)
    · -- the newest event seen is this one
      rintro ⟨g, hg, hnewest, hsent⟩
      have hle := hnewest next (Finset.mem_insert_self next seen)
      have hgnext : g = next := by
        rcases Finset.mem_insert.1 hg with rfl | hg
        · rfl
        · have hlt := h.below g hg
          omega
      rw [hgnext, hkind] at hsent
      exact Option.some.inj hsent
  · intro g hg
    rcases Finset.mem_insert.1 hg with rfl | hg
    · exact Nat.lt_succ_self _
    · exact Nat.lt_succ_of_lt (h.below g hg)
  · intro g hg
    by_cases hgnext : g = next
    · left
      rw [hgnext]
      exact Finset.mem_insert_self next seen
    · have hlt : g < next := by omega
      exact (h.covered g hlt).imp (fun hmem => Finset.mem_insert_of_mem hmem) id

/-- A window of events is counted, one after the other, by induction on its rows; each row's number
says which event it is. -/
theorem Books.count_window {rows : List (List α × ℕ)} :
    ∀ {s : PolicyState} {seen : Finset ℕ} {next : ℕ}, Books R q s seen next →
      rows.map Prod.snd = List.range' next rows.length →
      (∀ row ∈ rows, event_kind q row.2 = some (comm_kind row.1)) →
      Books R q (rows.foldl (fun s row => s.count (comm_kind row.1)) s)
        (seen ∪ (rows.map Prod.snd).toFinset) (next + rows.length) := by
  induction rows with
  | nil =>
    intro s seen next h _ _
    rw [List.map_nil, List.toFinset_nil, Finset.union_empty]
    exact h
  | cons row rest ih =>
    intro s seen next h hwindow hkinds
    rw [List.map_cons, List.length_cons, List.range'_succ, List.cons_eq_cons] at hwindow
    have hkind := hkinds row List.mem_cons_self
    rw [hwindow.1] at hkind
    have hrest := ih (h.count hkind) hwindow.2 fun row' hrow' =>
      hkinds row' (List.mem_cons_of_mem _ hrow')
    have hseen : seen ∪ ((row :: rest).map Prod.snd).toFinset =
        insert next seen ∪ (rest.map Prod.snd).toFinset := by
      rw [List.map_cons, List.toFinset_cons, hwindow.1, Finset.union_insert,
        Finset.insert_union]
    have hnext : next + (row :: rest).length = next + 1 + rest.length := by
      rw [List.length_cons]
      omega
    rw [hseen, hnext]
    exact hrest

/-! ### One poll -/

variable {samples : Samples α} {lo w : ℕ}

omit [Zero α] [One α] [DecidableEq α] in
theorem fresh_rows_seq (hrows : RowsFrom q' samples)
    (hseq : samples.seq = List.range' lo (w - lo)) (hnext : next ≤ w) :
    (PolicyState.fresh_rows next samples).map Prod.snd =
      List.range' (max lo next) (w - max lo next) := by
  have hzip : (samples.data.zip samples.seq).map Prod.snd = samples.seq :=
    List.map_snd_zip (Nat.le_of_eq hrows.data_length.symm)
  have hfilter : (PolicyState.fresh_rows next samples).map Prod.snd =
      samples.seq.filter fun g => next ≤ g := by
    unfold PolicyState.fresh_rows
    conv_rhs => rw [← hzip]
    rw [List.filter_map]
    rfl
  rw [hfilter, hseq, filter_range'_ge hnext]

theorem fresh_rows_kind (hrows : RowsFrom q' samples) :
    ∀ row ∈ PolicyState.fresh_rows next samples, event_kind q' row.2 = some (comm_kind row.1) := by
  intro row hrow
  obtain ⟨i, hi⟩ := List.mem_iff_getElem?.1 (List.mem_of_mem_filter hrow)
  obtain ⟨hdata, hg⟩ := List.getElem?_zip_eq_some.1 hi
  obtain ⟨sample, hlog, hsample, _⟩ := hrows.row i row.2 hg
  have hvalue : row.1 = sample.1 := Option.some.inj (hdata.symm.trans hsample)
  unfold event_kind
  rw [hlog, hvalue]
  rfl

/-- A poll of the ring the books are of brings them up to the write count it read. -/
theorem Books.read (h : Books R q s seen next) (hgrows : Grows R q q') (hnext : next ≤ w)
    (hlo : lo < w) (hseq : samples.seq = List.range' lo (w - lo)) (hrows : RowsFrom q' samples)
    (hfresh : begun R q ≤ lo + R.capacity)
    (hkept : ∀ g, g < w → begun R q' ≤ g + R.capacity → lo ≤ g) :
    Books R q'
      ((PolicyState.fresh_rows next samples).foldl (fun s row => s.count (comm_kind row.1)) s)
      (seen ∪ samples.seq.toFinset) w := by
  have hwindow := fresh_rows_seq hrows hseq hnext
  have hlen : (PolicyState.fresh_rows next samples).length = w - max lo next := by
    rw [← List.length_map Prod.snd, hwindow, List.length_range']
  -- the rows before the window were lost before any poll
  have hskipped : Books R q' s seen (max lo next) := by
    apply (h.grow hgrows).skip (Nat.le_max_right lo next)
    intro g hle hlt
    by_contra hkeeps
    have hlo' := hkept g (by omega) (Nat.le_of_not_lt hkeeps)
    omega
  have hcounted := hskipped.count_window (by rw [hwindow, hlen]) (fresh_rows_kind hrows)
  have hend : max lo next + (w - max lo next) = w := by omega
  rw [hlen, hend, hwindow] at hcounted
  -- the rows of the window before the cursor were seen
  have hseen : seen ∪ (List.range' (max lo next) (w - max lo next)).toFinset =
      seen ∪ samples.seq.toFinset := by
    ext g
    rw [hseq, Finset.mem_union, Finset.mem_union, List.mem_toFinset, List.mem_toFinset,
      List.mem_range'_1, List.mem_range'_1]
    constructor
    · rintro (hmem | hmem)
      · exact Or.inl hmem
      · right
        omega
    · rintro (hmem | hmem)
      · exact Or.inl hmem
      · by_cases hold : g < next
        · left
          apply (h.covered g hold).resolve_right
          omega
        · right
          omega
  rw [← hseen]
  exact hcounted

/-- What counting the fresh rows leaves, beside the books: every event up to the write count is
seen, or was overwritten before the poll could. -/
theorem Books.count_fresh (h : Books R q s seen s.next_seq) (hgrows : Grows R q q')
    (hnext : s.next_seq ≤ w) (hlo : lo < w) (hseq : samples.seq = List.range' lo (w - lo))
    (hrows : RowsFrom q' samples) (hfresh : begun R q ≤ lo + R.capacity)
    (hkept : ∀ g, g < w → begun R q' ≤ g + R.capacity → lo ≤ g) :
    Books R q' (s.count_fresh (w - 1) samples) (seen ∪ samples.seq.toFinset) w ∧
      (s.count_fresh (w - 1) samples).next_seq = w := by
  have hread := h.read hgrows hnext hlo hseq hrows hfresh hkept
  unfold PolicyState.count_fresh
  dsimp only
  by_cases hempty : (PolicyState.fresh_rows s.next_seq samples).isEmpty = true
  · rw [if_pos hempty]
    rw [List.isEmpty_iff] at hempty
    have hwindow := fresh_rows_seq hrows hseq hnext
    rw [hempty] at hwindow
    have hlen := congrArg List.length hwindow
    rw [List.map_nil, List.length_nil, List.length_range'] at hlen
    rw [hempty] at hread
    exact ⟨hread, by omega⟩
  · rw [if_neg hempty]
    have hw : w - 1 + 1 = w := by omega
    exact ⟨⟨hread.events, hread.counts, hread.in_flight, hread.below, hread.covered⟩, hw⟩

theorem ring_count (kind : CommKind) : (s.count kind).ring = s.ring := by
  rcases kind <;> rfl

theorem ring_fold (rows : List (List α × ℕ)) :
    ∀ s : PolicyState, (rows.foldl (fun s row => s.count (comm_kind row.1)) s).ring = s.ring := by
  induction rows with
  | nil =>
    intro s
    rfl
  | cons row rest ih =>
    intro s
    rw [List.foldl_cons, ih, ring_count]

theorem ring_count_fresh (newest : ℕ) : (s.count_fresh newest samples).ring = s.ring := by
  unfold PolicyState.count_fresh
  dsimp only
  by_cases hempty : (PolicyState.fresh_rows s.next_seq samples).isEmpty = true
  · rw [if_pos hempty]
  · rw [if_neg hempty]
    exact ring_fold _ s

end Books

/-! ## Sessions whose rings are recognised -/

section Sessions

variable [Zero α] [One α] [DecidableEq α] {R : RingSpec} {ring : String} {q q' : Producer α}
  {t t' : Tracker} {samples : Samples α}

/-- The viewer's state is the ring's own, or it has seen nothing of the ring yet. -/
def Holding (R : RingSpec) (ring : String) (q : Producer α) (t : Tracker) : Prop :=
  (t.state.ring = some ring ∧ t.state.next_seq ≤ published q ∧
      Books R q t.state t.seen t.state.next_seq) ∨
    (t.seen = ∅ ∧ (t.state.ring = none → t.state = PolicyState.init none))

theorem Books.correct {s : PolicyState} {seen : Finset ℕ} {next : ℕ}
    (h : Books R q' s seen next)
    (hseen : ∀ g, g < published q → g < next ∨ g + R.capacity < begun R q') :
    Correct R q q' ⟨s, seen⟩ :=
  ⟨h.events, h.counts, h.in_flight, fun g hg => (hseen g hg).elim (h.covered g) Or.inr⟩

omit [Zero α] [One α] [DecidableEq α] in
/-- A poll that reads nothing had nothing to read, or lost all of it. -/
theorem lost_of_quiet
    (hwhy : published q = 0 ∨ published q + read_retries * (R.capacity - 1) < begun R q') :
    ∀ g, g < published q → g + R.capacity < begun R q' := by
  intro g hg
  have hcap := R.capacity_pos
  unfold read_retries at hwhy
  omega

/-- The state a poll counts on: the ring's own, or a fresh one. -/
theorem absorb_eq {s : PolicyState} {w : ℕ} (hlast : samples.seq.getLast? = some (w - 1))
    (hw : 0 < w) :
    s.absorb ring samples =
      (if s.ring ≠ some ring ∨ w < s.next_seq then PolicyState.init (some ring)
        else s).count_fresh (w - 1) samples := by
  unfold PolicyState.absorb
  rw [hlast]
  dsimp only
  rw [Nat.sub_add_cancel hw]

/-- **One poll.** If it recognises its ring, the counters are right afterwards, and what the next
poll needs to know holds again. -/
theorem Holding.poll (hinv : Inv R q) (h : Holding R ring q t)
    (hpoll : Exec (Step R) view q (consume_policy R ring t) q' (samples, t'))
    (hallow : Recognised t samples) : Correct R q q' t' ∧ Holding R ring q' t' := by
  unfold consume_policy at hpoll
  obtain ⟨m, batch, hread, hpoll⟩ := exec_bind.1 hpoll
  obtain ⟨hend, heq⟩ := exec_pure.1 hpoll
  obtain ⟨rfl, rfl⟩ : samples = batch ∧
      t' = ⟨t.state.absorb ring batch, t.seen ∪ batch.seq.toFinset⟩ := Prod.mk.inj heq
  have hread := hread.tail hend
  have hgrows := (inv_reach hinv hread.reach).2
  rcases last_window_spec hinv hread with ⟨rfl, hwhy⟩ |
    ⟨lo, w, hlo, hpub, hpub', hseq, hrows, hfresh, hkept⟩
  · have hstate : t.state.absorb ring (Samples.empty : Samples α) = t.state := rfl
    have hseen : t.seen ∪ (Samples.empty : Samples α).seq.toFinset = t.seen :=
      Finset.union_empty t.seen
    rw [hstate, hseen]
    rcases h with ⟨hring, hnext, hbooks⟩ | ⟨hnone, hinit⟩
    · refine ⟨(hbooks.grow hgrows).correct fun g hg => Or.inr (lost_of_quiet hwhy g hg), ?_⟩
      exact Or.inl ⟨hring, Nat.le_trans hnext hgrows.published_le, hbooks.grow hgrows⟩
    · have hring : t.state.ring = none := by
        rcases hallow hnone with hring | ⟨newest, hnewest, _⟩
        · exact hring
        · exact nomatch hnewest
      rw [hinit hring, hnone]
      refine ⟨(Books.init none).correct fun g hg => Or.inr (lost_of_quiet hwhy g hg), ?_⟩
      exact Or.inr ⟨rfl, fun _ => rfl⟩
  · have hlast : samples.seq.getLast? = some (w - 1) := by
      rw [hseq, List.getLast?_range', if_neg (by omega)]
      congr 1
      omega
    have hw : 0 < w := by omega
    -- both ways the state that is counted on has right books up to its own cursor
    have hbase : ∃ base : PolicyState, t.state.absorb ring samples =
        base.count_fresh (w - 1) samples ∧ base.ring = some ring ∧ base.next_seq ≤ w ∧
          Books R q base t.seen base.next_seq := by
      refine ⟨_, absorb_eq hlast hw, ?_⟩
      rcases h with ⟨hring, hnext, hbooks⟩ | ⟨hnone, _⟩
      · have hkeep : ¬ (t.state.ring ≠ some ring ∨ w < t.state.next_seq) := by
          rintro (hne | hlt)
          · exact hne hring
          · omega
        rw [if_neg hkeep]
        exact ⟨hring, Nat.le_trans hnext hpub, hbooks⟩
      · have hreset : t.state.ring ≠ some ring ∨ w < t.state.next_seq := by
          rcases hallow hnone with hring | ⟨newest, hnewest, hlt⟩
          · left
            rw [hring]
            exact (Option.some_ne_none ring).symm
          · right
            rw [hlast, Option.some_inj] at hnewest
            omega
        rw [if_pos hreset, hnone]
        exact ⟨rfl, Nat.zero_le w, Books.init (some ring)⟩
    obtain ⟨base, habsorb, hring, hnext, hbooks⟩ := hbase
    obtain ⟨hbooks', hnext'⟩ := hbooks.count_fresh hgrows hnext hlo hseq hrows hfresh hkept
    rw [habsorb]
    refine ⟨hbooks'.correct fun g hg => Or.inl (Nat.lt_of_lt_of_le hg hpub), Or.inl ?_⟩
    refine ⟨(ring_count_fresh (w - 1)).trans hring, ?_, ?_⟩
    · show (base.count_fresh (w - 1) samples).next_seq ≤ published q'
      rw [hnext']
      exact hpub'
    · show Books R q' _ _ (base.count_fresh (w - 1) samples).next_seq
      rw [hnext']
      exact hbooks'

/-- What holds of every session whose polls recognise their rings, by induction on the steps of the
ring and the polls. -/
theorem Session.holding (h : Session R ring Recognised q t) :
    Inv R q ∧ Holding R ring q t := by
  induction h with
  | opened hq => exact ⟨inv_of_reachable hq, Or.inr ⟨rfl, fun _ => rfl⟩⟩
  | polled _ hpoll hallow ih => exact ⟨(inv_reach ih.1 hpoll.reach).1,
      (ih.2.poll ih.1 hpoll hallow).2⟩
  | next_ring _ hq' ih =>
    refine ⟨inv_of_reachable hq', Or.inr ⟨rfl, ?_⟩⟩
    intro hnone
    rcases ih.2 with ⟨hring, _⟩ | ⟨_, hinit⟩
    · exact nomatch hnone.symm.trans hring
    · exact hinit hnone

end Sessions

/-- **The counters are right after every poll of a session that recognises its rings.** -/
theorem policy_counters_exact [Zero α] [One α] [DecidableEq α] (R : RingSpec) (ring : String) :
    CountersExact (α := α) R ring Recognised :=
  fun _ _ _ _ _ hsession hpoll hallow =>
    (hsession.holding.2.poll hsession.holding.1 hpoll hallow).1

/-! ### A ring that is not recognised -/

/-- The `eval/policy_comm` ring of an eval run. -/
def comm_ring : RingSpec := ⟨512, 3, by decide⟩

/-- The ring of one run: a request sent and answered. -/
def answered : Producer ℤ :=
  ((Producer.create.post comm_ring [0, 1, 0] 5).bind
    (Producer.post comm_ring [1, 1, 2] 6)).getD .create

/-- The ring of the next run: a request sent and failed. -/
def failed : Producer ℤ :=
  ((Producer.create.post comm_ring [0, 1, 0] 7).bind
    (Producer.post comm_ring [2, 1, 2] 8)).getD .create

theorem answered_reachable : Reachable comm_ring answered := by
  apply runActs_reach
  show runActs (Producer.step comm_ring) ((.append [0, 1, 0] 5 :: List.replicate 7 .store) ++
    (.append [1, 1, 2] 6 :: List.replicate 7 .store)) .create = some answered
  rfl

theorem failed_reachable : Reachable comm_ring failed := by
  apply runActs_reach
  show runActs (Producer.step comm_ring) ((.append [0, 1, 0] 7 :: List.replicate 7 .store) ++
    (.append [2, 1, 2] 8 :: List.replicate 7 .store)) .create = some failed
  rfl

/-- What a poll of the first ring reads, and of the second. -/
def answered_rows : Samples ℤ := ⟨[[0, 1, 0], [1, 1, 2]], [5, 6], [0, 1], false⟩

def failed_rows : Samples ℤ := ⟨[[0, 1, 0], [2, 1, 2]], [7, 8], [0, 1], false⟩

/-- A poll of a ring at rest. -/
theorem poll_at_rest (R : RingSpec) (ring : String) (q : Producer ℤ) (samples : Samples ℤ)
    (t : Tracker)
    (hread : ((last R R.capacity).schedule (Producer.step R) view [] q).map
      (fun x => (x.1.log, x.2)) = some (q.log, samples)) :
    ∃ q', Exec (Step R) view q (consume_policy R ring t) q'
        (samples, ⟨t.state.absorb ring samples, t.seen ∪ samples.seq.toFinset⟩) ∧
      q'.log = q.log := by
  obtain ⟨q', hq', hlog⟩ := exec_schedule_observe (fun p : Producer ℤ => p.log) hread
  exact ⟨q', exec_bind.2 ⟨q', samples, hq', exec_pure.2 ⟨.refl, rfl⟩⟩, hlog⟩

/-- The next run has as many events as the last one: its ring is taken for the last one's, and the
failed request stays counted as answered. -/
theorem restarted_ring_miscounted :
    ¬ CountersExact (α := ℤ) comm_ring "dfc_r_eval_policy_comm" fun _ _ => True := by
  intro hexact
  obtain ⟨q₁, hpoll₁, _⟩ := poll_at_rest comm_ring "dfc_r_eval_policy_comm" answered
    answered_rows ⟨PolicyState.init none, ∅⟩ rfl
  obtain ⟨q₂, hpoll₂, hlog⟩ := poll_at_rest comm_ring "dfc_r_eval_policy_comm" failed
    failed_rows
    ⟨⟨some "dfc_r_eval_policy_comm", 2, 1, 1, 0, 0⟩, ∅⟩ rfl
  have hsession : Session comm_ring "dfc_r_eval_policy_comm" (fun _ _ => True) failed
      ⟨⟨some "dfc_r_eval_policy_comm", 2, 1, 1, 0, 0⟩, ∅⟩ :=
    Session.next_ring
      (Session.polled (Session.opened answered_reachable) hpoll₁ trivial) failed_reachable
  have hcorrect := hexact _ _ _ _ _ hsession hpoll₂ trivial
  have hcount := hcorrect.counts .error
  have hkind : event_kind q₂ 1 = some .error := by
    unfold event_kind
    rw [hlog]
    rfl
  have hseen : 1 ∈ (∅ : Finset ℕ) ∪ failed_rows.seq.toFinset := by decide
  have hmem : 1 ∈ ((∅ : Finset ℕ) ∪ failed_rows.seq.toFinset).filter
      (fun g => event_kind q₂ g = some .error) := Finset.mem_filter.2 ⟨hseen, hkind⟩
  have hzero : 0 = (((∅ : Finset ℕ) ∪ failed_rows.seq.toFinset).filter
      (fun g => event_kind q₂ g = some .error)).card := hcount
  rw [Finset.card_eq_zero.1 hzero.symm] at hmem
  exact Finset.notMem_empty 1 hmem

end DualFlexivControl.Viewers
