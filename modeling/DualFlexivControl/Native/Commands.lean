/-
`StopCommandPending`: the native controller takes over the command channel.

The Python arm follows the command ring with a `CommandCursor` that starts at the head of
the ring, so that a STOP posted before the arm began to listen is never replayed. When the
arm hands over to the native controller, the controller follows the same ring with a cursor
of its own, and that one starts at 0: the first check reads whatever is left in the ring,
the STOP of an earlier attempt included.

[`check_spec`] says what one check finds, under any interleaving with the brain. From it
follows when the two languages agree ([`stop_checks_agree`]): every STOP from before the
cursor has been overwritten by the first check, the Python cursor has lost none, and no
check is lapped.
-/
import DualFlexivControl.Control.Channel
import DualFlexivControl.Control.Message
import DualFlexivControl.Native.Setpoints

set_option autoImplicit false

open Interleave Relation DualFlexivControl.Ring DualFlexivControl.Control

namespace DualFlexivControl.Native

/-! ## The check -/

/-- `std::llround`: to the nearest integer, halves away from zero. -/
def llround (q : ℚ) : ℤ := if 0 ≤ q then ⌊q + 1 / 2⌋ else -⌊-q + 1 / 2⌋

/-- `kStopCommand`. -/
def kStopCommand : ℤ := 2

/-- `!row.empty() && static_cast<int>(std::llround(row[0])) == kStopCommand`. -/
def is_stop_row : List ℚ → Bool
  | [] => false
  | kind :: _ => (llround kind).bmod (2 ^ 32) == kStopCommand

/-- The loop of `StopCommandPending`, with the number of commands it has left to read. -/
def scan_loop (R : RingSpec) : ℕ → ℤ → List ℚ → Reader ℚ (Bool × ℤ)
  | 0, cursor, _ => return (false, cursor)
  | left + 1, cursor, row => do
    let r ← read_at R cursor row 0
    -- torn read: the command is read again at the next tick
    if r.ok = false then return (false, cursor)
    else if is_stop_row r.out then return (true, cursor + 1)
    else scan_loop R left (cursor + 1) r.out

/-- `StopCommandPending`: the result, and the cursor it leaves behind. -/
def stop_command_pending (R : RingSpec) (cursor : ℤ) : Reader ℚ (Bool × ℤ) := do
  let count ← load_write_count
  let cursor := if (count : ℤ) - cursor > R.capacity then (count : ℤ) - R.capacity else cursor
  scan_loop R (count - cursor).toNat cursor []

/-! ## What a check finds -/

/-- Command `g` is a STOP. -/
def StopAt (p : Producer ℚ) (g : ℕ) : Prop := ∃ row t, p.log[g]? = some (row, t) ∧ IsStop row

/-- Every command of the history was encoded by `ControlCommand.encode`. -/
def Encoded (R : RingSpec) (p : Producer ℚ) : Prop :=
  ∀ sample ∈ p.log, ∃ cmd : ControlCommand, cmd.encode R.dim = some sample.1

theorem llround_intCast (n : ℤ) : llround n = n := by
  unfold llround
  split
  · rw [Int.floor_intCast_add]
    norm_num
  · rw [← Int.cast_neg, Int.floor_intCast_add]
    norm_num

/-- On an encoded command the two languages agree what a STOP is. -/
theorem is_stop_row_iff {cmd : ControlCommand} {dim : ℕ} {row : List ℚ}
    (h : cmd.encode dim = some row) : is_stop_row row = true ↔ IsStop row := by
  have hdecode := decode_encode h
  have hrow : is_stop_row row = true ↔ cmd.kind = .stop := by
    unfold ControlCommand.encode at h
    split at h
    · cases h
    · cases h
      simp only [List.cons_append, is_stop_row, llround_intCast]
      cases cmd.kind <;> decide
  rw [hrow]
  constructor
  · intro hkind
    exact ⟨_, by rw [hdecode, hkind]⟩
  · rintro ⟨args, hargs⟩
    rw [hdecode] at hargs
    exact congrArg ControlCommand.kind (Option.some.inj hargs)

section Scan

variable {R : RingSpec} {p p' : Producer ℚ}

theorem StopAt.mono {g : ℕ} (h : StopAt p g) (hlog : p.log <+: p'.log) : StopAt p' g := by
  obtain ⟨row, t, hrow, hstop⟩ := h
  exact ⟨row, t, getElem?_of_grows hlog hrow, hstop⟩

/-- What was in the log already is what it was. -/
theorem StopAt.of_grows {g : ℕ} (h : StopAt p' g) (hlog : p.log <+: p'.log)
    (hg : g < p.log.length) : StopAt p g := by
  obtain ⟨row, t, hrow, hstop⟩ := h
  have hold := getElem?_of_grows hlog (List.getElem?_eq_getElem hg)
  rw [hold, Option.some.injEq] at hrow
  exact ⟨row, t, by rw [List.getElem?_eq_getElem hg, hrow], hstop⟩

/-- How the loop over the commands from `lo` up to `lo + left` ends: at the first STOP, at
the end, or at a slot that is being recycled. -/
inductive Scanned (R : RingSpec) (p' : Producer ℚ) (lo left : ℕ) : Bool → ℤ → Prop where
  | stop (g : ℕ) (hlo : lo ≤ g) (hhi : g < lo + left) (hstop : StopAt p' g) :
      Scanned R p' lo left true (g + 1)
  | clear (hclear : ∀ g, lo ≤ g → g < lo + left → ¬ StopAt p' g) :
      Scanned R p' lo left false ((lo + left : ℕ) : ℤ)
  | torn (g : ℕ) (hlo : lo ≤ g) (hhi : g < lo + left)
      (hrecycled : g + R.capacity < begun R p') : Scanned R p' lo left false g

/-- The loop, under any interleaving. The induction is on the commands left to read. -/
theorem scan_loop_spec {lo left : ℕ} {row : List ℚ} {b : Bool} {k : ℤ} (hinv : Ring.Inv R p)
    (hpub : lo + left ≤ published p) (henc : Encoded R p')
    (h : Exec (Step R) view p (scan_loop R left lo row) p' (b, k)) :
    Scanned R p' lo left b k := by
  induction left generalizing lo p row with
  | zero =>
    obtain ⟨-, heq⟩ := exec_pure.mp h
    cases heq
    exact .clear fun g hlo hhi => absurd hhi (by omega)
  | succ left ih =>
    obtain ⟨q, r, hr, h⟩ := exec_bind.mp h
    obtain ⟨hinvq, hgrowq⟩ := inv_reach hinv hr.reach
    have hreach : ReflTransGen (Step R) q p' := by
      split at h
      · exact (exec_pure.mp h).1
      · split at h
        · exact (exec_pure.mp h).1
        · exact h.reach
    obtain ⟨hinv', hgrow'⟩ := inv_reach hinvq hreach
    rcases read_at_spec hinv (show lo < published p by omega) hr with ⟨hok, -, hlog⟩ | ⟨hok, hB⟩
    · rw [if_neg (by rw [hok]; decide)] at h
      have hlog' := getElem?_of_grows hgrow'.log_grows hlog
      obtain ⟨cmd, hcmd⟩ := henc _ (List.mem_iff_getElem?.mpr ⟨lo, hlog'⟩)
      by_cases hstop : is_stop_row r.out = true
      · rw [if_pos hstop] at h
        obtain ⟨-, heq⟩ := exec_pure.mp h
        cases heq
        exact .stop lo (Nat.le_refl _) (by omega)
          ⟨r.out, r.timestamp, hlog', (is_stop_row_iff hcmd).mp hstop⟩
      · rw [if_neg hstop] at h
        have hnot : ¬ StopAt p' lo := by
          rintro ⟨row', t, hrow', hstop'⟩
          rw [hlog'] at hrow'
          cases hrow'
          exact hstop ((is_stop_row_iff hcmd).mpr hstop')
        have hpub' := hgrowq.published_le
        rw [show ((lo : ℤ) + 1) = ((lo + 1 : ℕ) : ℤ) by omega] at h
        have hrest := ih hinvq (show lo + 1 + left ≤ published q by omega) h
        -- the rest of the loop reads the commands after this one
        rw [show lo + (left + 1) = lo + 1 + left by omega] at *
        cases hrest with
        | stop g hlo hhi hs => exact .stop g (by omega) (by omega) hs
        | torn g hlo hhi hB => exact .torn g (by omega) (by omega) hB
        | clear hclear =>
          have hall := @Scanned.clear R p' lo (left + 1) fun g hlo hhi => by
            by_cases hg : g = lo
            · rw [hg]
              exact hnot
            · exact hclear g (by omega) (by omega)
          rw [show lo + (left + 1) = lo + 1 + left by omega] at hall
          exact hall
    · rw [if_pos hok] at h
      obtain ⟨hend, heq⟩ := exec_pure.mp h
      cases heq
      have hmono := (inv_reach hinvq hend).2.begun_le
      exact .torn lo (Nat.le_refl _) (by omega) (by omega)

/-- **One check**: some write count of the call, and the scan of what lies between the
cursor (or the oldest command the ring can hold) and it. -/
theorem check_spec {k : ℕ} {b : Bool} {k' : ℤ} (hinv : Ring.Inv R p) (hk : k ≤ published p)
    (henc : Encoded R p') (h : Exec (Step R) view p (stop_command_pending R k) p' (b, k')) :
    ∃ m, Between (Step R) p m p' ∧
      Scanned R p' (max k (published m - R.capacity))
        (published m - max k (published m - R.capacity)) b k' := by
  unfold stop_command_pending at h
  obtain ⟨q, count, hcount, h⟩ := exec_bind.mp h
  obtain ⟨m, ⟨hm, hmq⟩, rfl⟩ := exec_load_write_count.mp hcount
  obtain ⟨hinvm, hgrowm⟩ := inv_reach hinv hm
  obtain ⟨hinvq, hgrowq⟩ := inv_reach hinvm hmq
  refine ⟨m, ⟨hm, hmq.trans h.reach⟩, ?_⟩
  have hpub := hgrowm.published_le
  have hpubq := hgrowq.published_le
  have hclamp : (if (published m : ℤ) - k > R.capacity then (published m : ℤ) - R.capacity
      else k) = ((max k (published m - R.capacity) : ℕ) : ℤ) := by
    split <;> omega
  simp only [hclamp] at h
  rw [show ((published m : ℤ) - ((max k (published m - R.capacity) : ℕ) : ℤ)).toNat =
    published m - max k (published m - R.capacity) by omega] at h
  exact scan_loop_spec hinvq (by omega) henc h

end Scan

/-! ## The hand-off -/

/-- A native session, up to its first check: the Python cursor is created on the command
ring and drained any number of times; no row it returned was a STOP, or the session would
have ended there; and later the controller starts. -/
structure Handoff (R : RingSpec) where
  opening : Producer ℚ
  /-- The cursor's creation: some moment of its constructor. -/
  created : Producer ℚ
  attached : Producer ℚ
  drained : Producer ℚ
  started : Producer ℚ
  cursor : CommandCursor
  consumer : Consumer ℚ
  reachable : Reachable R opening
  creates : Exec (Step R) view opening (CommandCursor.init R) attached cursor
  between : Between (Step R) opening created attached
  drains : Consumes R (fun _ _ => True) attached cursor drained consumer
  no_stop : ∀ r ∈ consumer.returned, ¬ IsStop r.1
  starts : ReflTransGen (Step R) drained started

/-- The checks of a native session so far, all without a STOP: the ring, and the cursor of
the controller. `allow` says which checks are considered: it sees the cursor, and the ring
before and after the check. -/
inductive Checks (R : RingSpec) (allow : ℤ → Producer ℚ → Producer ℚ → Prop)
    (p₀ : Producer ℚ) : Producer ℚ → ℤ → Prop where
  | started : Checks R allow p₀ p₀ 0
  | checked {p p' : Producer ℚ} {k k' : ℤ} (hs : Checks R allow p₀ p k)
      (hcheck : Exec (Step R) view p (stop_command_pending R k) p' (false, k'))
      (hallow : allow k p p') : Checks R allow p₀ p' k'

/-- Below write count `w` a STOP has been published since the cursor's creation that the
cursor has not returned. -/
def StopPending {R : RingSpec} (h : Handoff R) (p : Producer ℚ) (w : ℕ) : Prop :=
  ∃ g, published h.created ≤ g ∧ g < w ∧ g ∉ h.consumer.indices ∧ StopAt p g

/-- A check reports a stop exactly if one was pending at a write count it saw. -/
def Agrees {R : RingSpec} (h : Handoff R) (p p' : Producer ℚ) (b : Bool) : Prop :=
  ∃ m, Between (Step R) p m p' ∧ (b = true ↔ StopPending h p' (published m))

/-- At most `capacity` of the commands published since the hand-off are unread. -/
def AtMostCapacityUnread {R : RingSpec} (h : Handoff R) (k : ℤ) (_p p' : Producer ℚ) : Prop :=
  published p' ≤ max k.toNat (published h.started) + R.capacity

/-- Native and Python STOP handling agree across the hand-off. -/
def StopsAgree (R : RingSpec) : Prop :=
  ∀ (h : Handoff R) (p p' : Producer ℚ) (k k' : ℤ) (b : Bool),
    Checks R (AtMostCapacityUnread h) h.started p k →
    Exec (Step R) view p (stop_command_pending R k) p' (b, k') →
    AtMostCapacityUnread h k p p' → Encoded R p' → Agrees h p p' b

/-- The commands behind the Python cursor at the first native check: a STOP from before the
cursor's creation has been overwritten, and the cursor has lost none since. -/
structure NoStopBehind {R : RingSpec} (h : Handoff R) : Prop where
  stale : ∀ g < published h.created, StopAt h.started g →
    g + R.capacity < published h.started
  lost : ∀ g, published h.created ≤ g → g < h.consumer.cursor.next →
    g ∉ h.consumer.indices → ¬ StopAt h.started g

/-- A check that is not lapped: what neither cursor has read is within the newest
`capacity` commands, and no append rewrites a slot the check reads. -/
structure NotLappedCheck {R : RingSpec} (h : Handoff R) (k : ℤ) (p p' : Producer ℚ) : Prop where
  in_reach : published p' ≤ max k.toNat h.consumer.cursor.next + R.capacity
  intact : begun R p' ≤ max (k.toNat + R.capacity) (published p)

section Agreement

variable {R : RingSpec} {h : Handoff R}

/-- The Python cursor's books when the controller starts. -/
theorem Handoff.follows (h : Handoff R) :
    ∃ b, Follows R b h.started h.consumer := by
  have hinv := inv_of_reachable h.reachable
  obtain ⟨m, hm, hc⟩ := init_spec hinv h.creates
  obtain ⟨hinvm, -⟩ := inv_reach hinv hm.1
  obtain ⟨hinv₁, hgrow₁⟩ := inv_reach hinvm hm.2
  have htracks := tracks_created hinv₁ hgrow₁.published_le hc
  exact ⟨published m, (follows_of_consumes htracks h.drains).mono h.starts⟩

theorem consumes_reach {α : Type} {allow : CommandCursor → Producer α → Prop}
    {p q : Producer α} {c : CommandCursor} {s : Consumer α}
    (hs : Consumes R allow p c q s) : ReflTransGen (Step R) p q := by
  induction hs with
  | created => exact .refl
  | drained _ hd _ ih => exact ih.trans hd.reach

/-- The creation of the cursor lies before the first check. -/
theorem Handoff.created_le (h : Handoff R) : published h.created ≤ published h.started := by
  have hinv := (inv_reach (inv_of_reachable h.reachable) h.between.1).1
  have hreach := h.between.2.trans ((consumes_reach h.drains).trans h.starts)
  exact (inv_reach hinv hreach).2.published_le

/-- What holds between two checks: the native cursor is at its start, or past everything
published by the first check; and no STOP is pending below it. -/
structure Listening (h : Handoff R) (p : Producer ℚ) (k : ℕ) : Prop where
  inv : Ring.Inv R p
  grows : Grows R h.started p
  le : k ≤ published p
  start : k = 0 ∨ published h.started ≤ k
  clear : ¬ StopPending h p k

theorem Handoff.started_le (h : Handoff R) : published h.started ≤ h.started.log.length := by
  obtain ⟨c, hfollows⟩ := h.follows
  exact hfollows.inv.bounds.1.trans (hfollows.inv.bounds.2.1.trans hfollows.inv.bounds.2.2.2)

/-- A STOP among the commands a check reads is pending: it was not published before the
cursor's creation, or it would have been overwritten, and the Python cursor returned no STOP. -/
theorem Listening.pending {p m p' : Producer ℚ} {k : ℕ} (hbehind : NoStopBehind h)
    (hs : Listening h p k) (hpm : ReflTransGen (Step R) p m) (hmp' : ReflTransGen (Step R) m p')
    {g : ℕ} (hlo : max k (published m - R.capacity) ≤ g) (hhi : g < published m)
    (hstop : StopAt p' g) : StopPending h p' (published m) := by
  obtain ⟨hinvm, hgrowm⟩ := inv_reach hs.inv hpm
  obtain ⟨-, hgrow'⟩ := inv_reach hinvm hmp'
  obtain ⟨c, hfollows⟩ := h.follows
  have hcreated := h.created_le
  have hlen := h.started_le
  have hm := hs.grows.published_le.trans hgrowm.published_le
  have hlog : h.started.log <+: p'.log :=
    hs.grows.log_grows.trans (hgrowm.log_grows.trans hgrow'.log_grows)
  refine ⟨g, ?_, hhi, ?_, hstop⟩
  · by_contra hlt
    -- A STOP from before the creation is out of the window of the first check, and behind the
    -- cursor of the later ones.
    have hstale := hbehind.stale g (by omega) (hstop.of_grows hlog (by omega))
    rcases hs.start with hzero | hpast
    · omega
    · omega
  · intro hmem
    obtain ⟨r, hr, rfl⟩ := List.mem_map.mp hmem
    obtain ⟨t, ht⟩ := hfollows.rows r hr
    obtain ⟨row, t', hrow, hisstop⟩ := hstop
    rw [getElem?_of_grows hlog ht] at hrow
    cases hrow
    exact h.no_stop r hr hisstop

/-- A pending STOP is among the commands a check reads that is not lapped. -/
theorem Listening.reads {p m p' : Producer ℚ} {k : ℕ} (hbehind : NoStopBehind h)
    (hs : Listening h p k) (hpm : ReflTransGen (Step R) p m) (hmp' : ReflTransGen (Step R) m p')
    (hreach : published p' ≤ max k h.consumer.cursor.next + R.capacity) {g : ℕ}
    (hb : published h.created ≤ g) (hmem : g ∉ h.consumer.indices) (hstop : StopAt p' g) :
    max k (published m - R.capacity) ≤ g := by
  obtain ⟨hinvm, hgrowm⟩ := inv_reach hs.inv hpm
  obtain ⟨-, hgrow'⟩ := inv_reach hinvm hmp'
  obtain ⟨c, hfollows⟩ := h.follows
  have hlen := h.started_le
  have hm := hgrow'.published_le
  have hlog := hgrowm.log_grows.trans hgrow'.log_grows
  -- Below the native cursor no STOP is pending: the checks before have read past it.
  have hk : k ≤ g := by
    by_contra hlt
    have hbounds := hs.inv.bounds
    have hle := hs.le
    exact hs.clear ⟨g, hb, by omega, hmem, hstop.of_grows hlog (by omega)⟩
  -- Below the Python cursor every STOP was returned, or none was there.
  have hnext : h.consumer.cursor.next ≤ g := by
    by_contra hlt
    have hle := hfollows.next_le
    exact hbehind.lost g hb (by omega) hmem
      (hstop.of_grows (hs.grows.log_grows.trans hlog) (by omega))
  omega

/-- A check of a session reports what was pending, unless it was lapped; where it found nothing the
session goes on listening behind it. -/
theorem Listening.check {p p' : Producer ℚ} {k : ℕ} {b : Bool} {k' : ℤ}
    (hbehind : NoStopBehind h) (hs : Listening h p k)
    (hcheck : Exec (Step R) view p (stop_command_pending R k) p' (b, k'))
    (hlap : NotLappedCheck h k p p') (henc : Encoded R p') :
    Agrees h p p' b ∧ (b = false → ∃ n : ℕ, k' = n ∧ Listening h p' n) := by
  obtain ⟨m, ⟨hpm, hmp'⟩, hscan⟩ := check_spec hs.inv hs.le henc hcheck
  obtain ⟨hinvm, hgrowm⟩ := inv_reach hs.inv hpm
  obtain ⟨hinv', hgrow'⟩ := inv_reach hinvm hmp'
  have hle := hs.le
  have hstart_p := hs.grows.published_le
  have hp_m := hgrowm.published_le
  have hm_p' := hgrow'.published_le
  have hreach := hlap.in_reach
  have hintact := hlap.intact
  have hcap := R.capacity_pos
  rw [Int.toNat_natCast] at hreach hintact
  have hcursor : max k (published m - R.capacity) +
      (published m - max k (published m - R.capacity)) = published m := by
    omega
  cases hscan with
  | stop g hlo hhi hstop =>
    rw [hcursor] at hhi
    have hpending := hs.pending hbehind hpm hmp' hlo hhi hstop
    exact ⟨⟨m, ⟨hpm, hmp'⟩, fun _ => hpending, fun _ => rfl⟩, fun hb => by cases hb⟩
  | torn g hlo hhi hrecycled =>
    -- excluded: the slot of a command the check reads is not rewritten
    omega
  -- A pending STOP would have been among the commands read.
  | clear hclear =>
    have hnone : ¬ StopPending h p' (published m) := by
      rintro ⟨g, hb, hhi, hmem, hstop⟩
      exact hclear g (hs.reads hbehind hpm hmp' hreach hb hmem hstop)
        (by rw [hcursor]; exact hhi) hstop
    refine ⟨⟨m, ⟨hpm, hmp'⟩, fun hb => (by cases hb), fun hp => absurd hp hnone⟩, fun _ => ?_⟩
    refine ⟨published m, by rw [hcursor], ?_⟩
    exact {
      inv := hinv'
      grows := hs.grows.trans (hgrowm.trans hgrow')
      le := hm_p'
      start := .inr (by omega)
      clear := hnone }

/-- The checks before, by induction over them: each of them found no STOP and left the cursor where
the next one starts. -/
theorem Checks.between {p : Producer ℚ} {k : ℤ} (hbehind : NoStopBehind h)
    (hs : Checks R (fun k p p' => NotLappedCheck h k p p' ∧ Encoded R p') h.started p k) :
    ∃ n : ℕ, k = n ∧ Listening h p n := by
  induction hs with
  | started =>
    obtain ⟨c, hfollows⟩ := h.follows
    exact ⟨0, rfl, {
      inv := hfollows.inv
      grows := Grows.refl R _
      le := Nat.zero_le _
      start := .inl rfl
      clear := fun ⟨g, _, hlt, _⟩ => absurd hlt (Nat.not_lt_zero g) }⟩
  | checked _ hcheck hallow ih =>
    obtain ⟨n, rfl, hn⟩ := ih
    exact (hn.check hbehind hcheck hallow.1 hallow.2).2 rfl

/-- **The hand-off.** In every session that starts with no STOP behind the Python cursor
and whose checks are not lapped, every check of the controller reports a stop exactly if a
STOP published since the Python cursor's creation, and not returned by it, is published. -/
theorem stop_checks_agree (hbehind : NoStopBehind h) {p p' : Producer ℚ} {k k' : ℤ} {b : Bool}
    (hs : Checks R (fun k p p' => NotLappedCheck h k p p' ∧ Encoded R p') h.started p k)
    (hcheck : Exec (Step R) view p (stop_command_pending R k) p' (b, k'))
    (hlap : NotLappedCheck h k p p') (henc : Encoded R p') : Agrees h p p' b := by
  obtain ⟨n, rfl, hn⟩ := hs.between hbehind
  exact (hn.check hbehind hcheck hlap henc).1

end Agreement

/-! ## A STOP after the hand-off, and one before it -/

/-- The micro-steps of posting one row. -/
def post_acts (row : List ℚ) : List (Act ℚ) := .append row 0 :: List.replicate 5 .store

/-- A STOP, as `ControlCommand.encode` writes it on a ring of width one. -/
theorem stop_encoded : (⟨.stop, []⟩ : ControlCommand).encode 1 = some [2] := rfl

/-- A ring that nothing was posted on, taken over as it is. -/
def fresh_handoff : Handoff two_slots where
  opening := .create
  created := .create
  attached := .create
  drained := .create
  started := .create
  cursor := ⟨-1⟩
  consumer := ⟨⟨-1⟩, [], []⟩
  reachable := .refl
  creates := exec_eval _ _
  between := ⟨.refl, .refl⟩
  drains := .created
  no_stop := fun r hr => by cases hr
  starts := .refl

/-- The ring after one STOP. -/
def stop_posted : Producer ℚ := ((Producer.create : Producer ℚ).post two_slots [2] 0).getD .create

theorem stop_posted_encoded : Encoded two_slots stop_posted := by
  intro sample hsample
  have hlog : stop_posted.log = [([2], 0)] := rfl
  rw [hlog, List.mem_singleton] at hsample
  rw [hsample]
  exact ⟨⟨.stop, []⟩, stop_encoded⟩

/-- A check from the start of the ring finds it: the general theorem at a ring of two slots with one
STOP in it. -/
theorem stop_posted_check : Exec (Step two_slots) view stop_posted
    (stop_command_pending two_slots 0) stop_posted (true, 1) := by
  have hstop : is_stop_row [2] = true :=
    (is_stop_row_iff stop_encoded).mpr ⟨[], decode_encode stop_encoded⟩
  have heval : (stop_command_pending two_slots 0).eval (view stop_posted) = (true, 1) := by
    show (scan_loop two_slots 1 0 []).eval (view stop_posted) = (true, 1)
    unfold scan_loop
    rw [Prog.eval_bind]
    show (if (⟨true, [2], 0⟩ : Read ℚ).ok = false then _ else if is_stop_row [2] = true then _
      else _ : Reader ℚ (Bool × ℤ)).eval (view stop_posted) = (true, 1)
    rw [if_neg (by decide), if_pos hstop]
    rfl
  exact heval ▸ exec_eval stop_posted (stop_command_pending two_slots 0)

/-- The STOP is posted while the first check is about to start, and reported. -/
theorem stop_checks_agree_fresh :
    Exec (Step two_slots) view fresh_handoff.started (stop_command_pending two_slots 0)
      stop_posted (true, 1) ∧
    Agrees fresh_handoff fresh_handoff.started stop_posted true := by
  have hpost : ReflTransGen (Step two_slots) fresh_handoff.started stop_posted :=
    runActs_reach (show runActs (Producer.step two_slots) (post_acts [2]) .create =
      some stop_posted from rfl)
  have hcheck : Exec (Step two_slots) view fresh_handoff.started
      (stop_command_pending two_slots 0) stop_posted (true, 1) :=
    Exec.head hpost stop_posted_check
  have hbehind : NoStopBehind fresh_handoff := by
    refine ⟨fun g hg => absurd hg (Nat.not_lt_zero g), fun g _ hg => absurd hg ?_⟩
    exact Nat.not_lt_zero g
  exact ⟨hcheck, stop_checks_agree hbehind .started hcheck ⟨by decide, by decide⟩
    stop_posted_encoded⟩

/-- A STOP is posted, and then the arm begins to listen and hands over. -/
def stale_handoff : Handoff two_slots where
  opening := stop_posted
  created := stop_posted
  attached := stop_posted
  drained := stop_posted
  started := stop_posted
  cursor := ⟨0⟩
  consumer := ⟨⟨0⟩, [], []⟩
  reachable := runActs_reach (show runActs (Producer.step two_slots) (post_acts [2]) .create =
    some stop_posted from rfl)
  creates := exec_eval stop_posted (CommandCursor.init two_slots)
  between := ⟨.refl, .refl⟩
  drains := .created
  no_stop := fun r hr => by cases hr
  starts := .refl

/-- The Python cursor will never return that STOP, and nothing is unread; but the native
controller's first check reports it. -/
theorem stale_stop_replayed : ¬ StopsAgree two_slots := by
  intro hagree
  obtain ⟨m, ⟨hm, hm'⟩, hiff⟩ := hagree stale_handoff _ _ _ _ _ .started stop_posted_check
    (show published stop_posted ≤ _ by decide) stop_posted_encoded
  have hle : published m ≤ 1 :=
    (inv_reach (inv_of_reachable (stale_handoff.reachable.trans hm)) hm').2.published_le
  obtain ⟨g, hlo, hhi, -⟩ := hiff.mp rfl
  have hcreated : published stale_handoff.created = 1 := rfl
  omega

end DualFlexivControl.Native
