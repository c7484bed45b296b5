/-
Force feedback across restarts of the follower: `_forward_force_feedback` of
`interfaces/factr/interface.py` against the arm node's `tau_ext` stream.

The segment of a stream has the same name in every life of its producer, and a reader that has
attached keeps its mapping: unlinking a name takes no memory away, so reading through the mapping
never raises, and the reader is never dropped. After the arm node came back under the same name
the leader goes on with the dead segment. A sample of it that is still fresh is sent although the
stream is another's by now, and the samples of the new segment are never sent ([`Current`] says
which polls are not affected).

One side is modelled, for sides share nothing but the clock. The node is open and not simulated;
otherwise nothing is sent. `accepts` stands for a send of the client that does not raise.
-/
import Mathlib.Data.Int.Notation
import Mathlib.Data.List.Nodup
import DualFlexivControl.Lib.Runs

set_option autoImplicit false

namespace DualFlexivControl.Factr.Feedback

/-- One sample of the stream. -/
structure Sample (F : Type) where
  tau : List F
  t_ns : ℤ
  deriving DecidableEq, Repr

/-- One torque sent to the leader, and the segment and index of the sample it was made from. -/
structure Sent (F : Type) where
  segment : ℕ
  seq : ℕ
  tau : List F
  deriving DecidableEq, Repr

def Sent.key {F : Type} (m : Sent F) : ℕ × ℕ := (m.segment, m.seq)

/-- All segments there ever were under the stream's name, with their samples; the one that has
the name now; whether the manifest is published; the segment the arm node writes; the node's
reader and newest index sent; and what it sent, newest first. -/
structure World (F : Type) where
  segments : List (List (Sample F))
  linked : Option ℕ
  manifest : Bool
  writer : Option ℕ
  reader : Option ℕ
  last_seq : Option ℕ
  sent : List (Sent F)
  deriving DecidableEq, Repr

namespace World

variable {F : Type} (w : World F)

def samples (segment : ℕ) : List (Sample F) := w.segments.getD segment []

/-- The segment that the registry leads to. -/
def registered : Option ℕ := if w.manifest then w.linked else none

/-- `reader.latest()`: the newest sample, with its index. -/
def latest (segment : ℕ) : Option (ℕ × Sample F) :=
  (w.samples segment).getLast?.map fun s => ((w.samples segment).length - 1, s)

/-- The reader: the cached one, or a new one on the segment the manifest leads to. -/
def attach : Option ℕ :=
  match w.reader with
  | some segment => some segment
  | none => w.registered

variable [Neg F]

/-- `_forward_force_feedback`, and the torque it sends. -/
def forward (max_age_ns now : ℤ) (accepts : Bool) : World F × Option (Sent F) :=
  match w.attach with
  | none => (w, none)
  | some segment =>
    let w := { w with reader := some segment }
    match w.latest segment with
    | none => (w, none)
    | some (seq, s) =>
      if max_age_ns < now - s.t_ns then (w, none)
      else if w.last_seq = some seq then (w, none)
      else if accepts = true then
        let m : Sent F := ⟨segment, seq, s.tau.map Neg.neg⟩
        ({ w with last_seq := some seq, sent := m :: w.sent }, some m)
      else (w, none)

end World

/-! ## Runs -/

/-- A poll of the FACTR node. -/
structure Poll where
  now : ℤ
  accepts : Bool
  deriving DecidableEq, Repr

/-- The arm node creates its segment and publishes the manifest, writes, and dies; the segment is
unlinked and the manifest removed, by the node itself or by a sweep; and the FACTR node polls. -/
inductive Event (F : Type)
  | create
  | publish
  | append (s : Sample F)
  | die
  | unlink
  | remove
  | poll (p : Poll)

section Runs

variable {F : Type} [Neg F]

def World.step (max_age_ns : ℤ) (w : World F) : Event F → World F
  | .create =>
    { w with
      segments := w.segments ++ [[]]
      linked := some w.segments.length
      writer := some w.segments.length }
  | .publish => { w with manifest := true }
  | .append s =>
    match w.writer with
    | none => w
    | some segment => { w with segments := w.segments.modify segment (· ++ [s]) }
  | .die => { w with writer := none }
  | .unlink => { w with linked := none }
  | .remove => { w with manifest := false }
  | .poll p => (w.forward max_age_ns p.now p.accepts).1

/-- A segment is created only under a free name, and only a live node writes. -/
def World.Valid (w : World F) : Event F → Prop
  | .create => w.linked = none
  | .append _ => w.writer.isSome = true
  | _ => True

/-- No segment, and a node that has just been opened. -/
def World.new : World F := ⟨[], none, false, none, none, none, []⟩

def World.run (max_age_ns : ℤ) (events : List (Event F)) : World F :=
  Runs.run (World.step max_age_ns) World.new events

def Valid_run (max_age_ns : ℤ) (events : List (Event F)) : Prop :=
  Runs.Valid (World.step max_age_ns) World.Valid World.new events

/-- Every poll of a run, in the world it happens in. -/
def Each_poll (max_age_ns : ℤ) (events : List (Event F)) (p : World F → Poll → Prop) : Prop :=
  Runs.Each (World.step max_age_ns) Event.poll World.new events p

end Runs

/-! ## The law -/

section Law

variable {F : Type} [Neg F] (max_age_ns : ℤ) (w : World F) (p : Poll)

/-- The newest sample of a segment is fresh and was not sent. -/
def World.Due (segment : ℕ) : Prop :=
  ∃ seq s, w.latest segment = some (seq, s) ∧ p.now - s.t_ns ≤ max_age_ns ∧
    (segment, seq) ∉ w.sent.map Sent.key

/-- What a poll sends is the negation of a sample of the registered segment that is not too old,
and the newest sample of that segment is sent if it is due and the socket accepts it. -/
structure World.Follows : Prop where
  live : ∀ m, (w.forward max_age_ns p.now p.accepts).2 = some m →
    w.registered = some m.segment ∧ ∃ s, (w.samples m.segment)[m.seq]? = some s ∧
      p.now - s.t_ns ≤ max_age_ns ∧ m.tau = s.tau.map Neg.neg
  sends : ∀ segment seq s, w.registered = some segment → w.latest segment = some (seq, s) →
    p.now - s.t_ns ≤ max_age_ns → (segment, seq) ∉ w.sent.map Sent.key → p.accepts = true →
      (w.forward max_age_ns p.now p.accepts).2 = some ⟨segment, seq, s.tau.map Neg.neg⟩

/-- If the socket accepts, and the reader maps another segment than the registered one, then
neither has a sample that is due. -/
def World.Current : Prop :=
  p.accepts = true → ∀ cached, w.reader = some cached → w.registered ≠ some cached →
    ¬ w.Due max_age_ns p cached ∧
      ∀ segment, w.registered = some segment → ¬ w.Due max_age_ns p segment

end Law

/-! ## What a poll does -/

section Poll

variable {F : Type} {w : World F}

theorem attach_cached {cached : ℕ} (h : w.reader = some cached) : w.attach = some cached := by
  unfold World.attach
  rw [h]

theorem latest_eq {segment seq : ℕ} {s : Sample F} (h : w.latest segment = some (seq, s)) :
    seq + 1 = (w.samples segment).length ∧ (w.samples segment)[seq]? = some s := by
  unfold World.latest at h
  rw [List.getLast?_eq_getElem?] at h
  obtain ⟨s', hs, heq⟩ := Option.map_eq_some_iff.mp h
  rw [Prod.mk.injEq] at heq
  obtain ⟨rfl, rfl⟩ := heq
  have hlt := (List.getElem?_eq_some_iff.mp hs).1
  exact ⟨by omega, hs⟩

variable [Neg F] {max_age_ns now : ℤ} {accepts : Bool}

/-- The newest sample of the segment the reader maps is sent if it is fresh, is not the last one
sent, and the socket accepts it; nothing else is. -/
theorem forward_sends {m : Sent F} :
    (w.forward max_age_ns now accepts).2 = some m ↔
      ∃ segment seq s, w.attach = some segment ∧ w.latest segment = some (seq, s) ∧
        now - s.t_ns ≤ max_age_ns ∧ w.last_seq ≠ some seq ∧ accepts = true ∧
        m = ⟨segment, seq, s.tau.map Neg.neg⟩ := by
  unfold World.forward
  match hattach : w.attach with
  | none => simp
  | some segment =>
    have hread : World.latest { w with reader := some segment } segment = w.latest segment := rfl
    match hlatest : w.latest segment with
    | none => simp [hread, hlatest]
    | some (seq, s) =>
      simp only [hread, hlatest]
      constructor
      · intro h
        split_ifs at h with hold hlast hacc
        exact ⟨segment, seq, s, rfl, hlatest, by omega, hlast, hacc, (Option.some.inj h).symm⟩
      · rintro ⟨segment', seq', s', hsegment, hl, hfresh, hlast, hacc, rfl⟩
        obtain rfl := Option.some.inj hsegment
        rw [hlatest] at hl
        obtain ⟨rfl, rfl⟩ := Prod.mk.inj (Option.some.inj hl)
        rw [if_neg (by omega), if_neg hlast, if_pos hacc]

/-- A poll that sends nothing leaves the reader it found: attached, if there was a stream to attach
to, and at the same sample. -/
theorem forward_quiet (h : (w.forward max_age_ns now accepts).2 = none) :
    (w.forward max_age_ns now accepts).1 = { w with reader := w.attach } := by
  unfold World.forward at h ⊢
  match hattach : w.attach with
  | none =>
    have hnone : w.reader = none := by
      match hreader : w.reader with
      | none => rfl
      | some segment =>
        rw [attach_cached hreader] at hattach
        contradiction
    simp only [← hnone]
  | some segment =>
    simp only [hattach] at h ⊢
    split at h
    · rfl
    · split_ifs at h ⊢ <;> rfl

/-- A poll that sends records what it sent. -/
theorem forward_sent {m : Sent F} (h : (w.forward max_age_ns now accepts).2 = some m) :
    (w.forward max_age_ns now accepts).1 =
      { w with reader := some m.segment, last_seq := some m.seq, sent := m :: w.sent } := by
  obtain ⟨segment, seq, s, hattach, hlatest, hfresh, hlast, hacc, rfl⟩ := forward_sends.mp h
  have hread : World.latest { w with reader := some segment } segment = some (seq, s) := hlatest
  have hage : ¬ max_age_ns < now - s.t_ns := by omega
  unfold World.forward
  simp only [hattach, hread]
  rw [if_neg hage, if_neg hlast, if_pos hacc]

end Poll

/-! ## The invariant -/

section Invariant

variable {F : Type}

/-- Everything that was sent is of the segment the reader maps, the last one sent is the newest
of it, and no sample was sent twice. -/
structure World.Inv (w : World F) : Prop where
  mapped : ∀ m ∈ w.sent, w.reader = some m.segment
  newest : ∀ m ∈ w.sent, ∃ seq, w.last_seq = some seq ∧ m.seq ≤ seq
  last : ∀ seq, w.last_seq = some seq → ∃ segment, w.reader = some segment ∧
    seq < (w.samples segment).length ∧ (segment, seq) ∈ w.sent.map Sent.key
  once : (w.sent.map Sent.key).Nodup

/-- As long as segments only grow, only the node changes what the invariant is about. -/
theorem World.Inv.mono {w w' : World F} (h : w.Inv) (hreader : w'.reader = w.reader)
    (hlast : w'.last_seq = w.last_seq) (hsent : w'.sent = w.sent)
    (hgrow : ∀ segment, (w.samples segment).length ≤ (w'.samples segment).length) : w'.Inv where
  mapped m hm := by
    rw [hsent] at hm
    rw [hreader]
    exact h.mapped m hm
  newest m hm := by
    rw [hsent] at hm
    rw [hlast]
    exact h.newest m hm
  last seq hseq := by
    rw [hlast] at hseq
    obtain ⟨segment, hsegment, hlt, hmem⟩ := h.last seq hseq
    rw [hreader, hsent]
    exact ⟨segment, hsegment, Nat.lt_of_lt_of_le hlt (hgrow segment), hmem⟩
  once := by
    rw [hsent]
    exact h.once

/-- Sent entries name the segment and the sample, so the last index sent decides whether the
newest sample of the mapped segment was sent. -/
theorem World.Inv.last_iff {w : World F} (h : w.Inv) {segment seq : ℕ} {s : Sample F}
    (hattach : w.attach = some segment) (hlatest : w.latest segment = some (seq, s)) :
    w.last_seq = some seq ↔ (segment, seq) ∈ w.sent.map Sent.key := by
  have hlen := (latest_eq hlatest).1
  constructor
  · intro hlast
    obtain ⟨cached, hcached, _, hmem⟩ := h.last seq hlast
    rw [attach_cached hcached] at hattach
    rw [← Option.some.inj hattach]
    exact hmem
  · intro hmem
    obtain ⟨m, hm, hkey⟩ := List.mem_map.mp hmem
    obtain ⟨hsegment, hseq⟩ := Prod.mk.inj hkey
    obtain ⟨last, hlast, hle⟩ := h.newest m hm
    obtain ⟨cached, hcached, hlt, _⟩ := h.last last hlast
    have hsame : cached = segment := by
      rw [h.mapped m hm] at hcached
      rw [← Option.some.inj hcached, hsegment]
    rw [hsame] at hlt
    rw [hlast]
    congr 1
    omega

variable [Neg F]

theorem World.Inv.poll {w : World F} (h : w.Inv) (max_age_ns now : ℤ) (accepts : Bool) :
    (w.forward max_age_ns now accepts).1.Inv := by
  match hout : (w.forward max_age_ns now accepts).2 with
  | none =>
    rw [forward_quiet hout]
    refine ⟨fun m hm => attach_cached (h.mapped m hm), h.newest, ?_, h.once⟩
    intro seq hseq
    obtain ⟨segment, hreader, hrest⟩ := h.last seq hseq
    exact ⟨segment, attach_cached hreader, hrest⟩
  | some m =>
    rw [forward_sent hout]
    obtain ⟨segment, seq, s, hattach, hlatest, _, hlast, _, rfl⟩ := forward_sends.mp hout
    have hlen := (latest_eq hlatest).1
    have hfresh : (segment, seq) ∉ w.sent.map Sent.key := by
      rw [← h.last_iff hattach hlatest]
      exact hlast
    -- what was sent before is of the same segment, and older
    have hold : ∀ m ∈ w.sent, m.segment = segment ∧ m.seq ≤ seq := by
      intro m hm
      have hreader := h.mapped m hm
      have hsame : m.segment = segment := by
        rw [attach_cached hreader] at hattach
        exact Option.some.inj hattach
      obtain ⟨last, hlast, hle⟩ := h.newest m hm
      obtain ⟨cached, hcached, hlt, _⟩ := h.last last hlast
      rw [hreader, hsame] at hcached
      rw [← Option.some.inj hcached] at hlt
      exact ⟨hsame, by omega⟩
    refine ⟨?_, ?_, ?_, ?_⟩
    · intro m hm
      rcases List.mem_cons.mp hm with rfl | hm
      · rfl
      · rw [(hold m hm).1]
    · intro m hm
      refine ⟨seq, rfl, ?_⟩
      rcases List.mem_cons.mp hm with rfl | hm
      · exact Nat.le_refl _
      · exact (hold m hm).2
    · intro q hq
      obtain rfl := Option.some.inj hq
      refine ⟨segment, rfl, ?_, List.mem_cons_self⟩
      change seq < (w.samples segment).length
      omega
    · exact List.nodup_cons.mpr ⟨hfresh, h.once⟩

/-- One lemma for each thing that happens: the arm node's side only lets segments grow. -/
theorem World.Inv.step {w : World F} (h : w.Inv) (max_age_ns : ℤ) (e : Event F) :
    (w.step max_age_ns e).Inv := by
  match e with
  | .create =>
    refine h.mono rfl rfl rfl fun segment => ?_
    change (w.segments.getD segment []).length ≤ ((w.segments ++ [[]]).getD segment []).length
    rw [List.getD_eq_getElem?_getD, List.getD_eq_getElem?_getD]
    by_cases hlt : segment < w.segments.length
    · apply Nat.le_of_eq
      rw [List.getElem?_append_left hlt]
    · rw [List.getElem?_eq_none (by omega)]
      exact Nat.zero_le _
  | .append s =>
    match hwriter : w.writer with
    | none =>
      have hsame : w.step max_age_ns (.append s) = w := by
        simp only [World.step, hwriter]
      rw [hsame]
      exact h
    | some writer =>
      have hstep : w.step max_age_ns (.append s) =
          { w with segments := w.segments.modify writer (· ++ [s]) } := by
        simp only [World.step, hwriter]
      rw [hstep]
      refine h.mono rfl rfl rfl fun segment => ?_
      change (w.segments.getD segment []).length ≤
        ((w.segments.modify writer (· ++ [s])).getD segment []).length
      rw [List.getD_eq_getElem?_getD, List.getD_eq_getElem?_getD, List.getElem?_modify]
      match w.segments[segment]? with
      | none => exact Nat.le_refl _
      | some l =>
        by_cases hwrite : writer = segment
        · simp [hwrite]
        · simp [hwrite]
  | .poll p => exact h.poll max_age_ns p.now p.accepts
  | .publish | .die | .unlink | .remove => exact h.mono rfl rfl rfl fun _ => Nat.le_refl _

end Invariant

/-! ## Which polls keep the law -/

section Law

variable {F : Type} [Neg F] {max_age_ns : ℤ} {w : World F} {p : Poll}

/-- With nothing cached, or the registered segment cached, a poll keeps the law. -/
theorem follows_registered (hinv : w.Inv) (hattach : w.attach = w.registered) :
    w.Follows max_age_ns p where
  live m hm := by
    obtain ⟨segment, seq, s, hsegment, hlatest, hfresh, _, _, rfl⟩ := forward_sends.mp hm
    rw [hattach] at hsegment
    exact ⟨hsegment, s, (latest_eq hlatest).2, hfresh, rfl⟩
  sends segment seq s hregistered hlatest hfresh hnew hacc := by
    rw [← hattach] at hregistered
    apply forward_sends.mpr
    refine ⟨segment, seq, s, hregistered, hlatest, hfresh, ?_, hacc, rfl⟩
    intro hlast
    exact hnew ((hinv.last_iff hregistered hlatest).mp hlast)

/-- With another segment cached, exactly the due samples of the two break the law. -/
theorem follows_stale (hinv : w.Inv) {cached : ℕ} (hcached : w.reader = some cached)
    (hstale : w.registered ≠ some cached) :
    w.Follows max_age_ns p ↔ (p.accepts = true → ¬ w.Due max_age_ns p cached ∧
      ∀ segment, w.registered = some segment → ¬ w.Due max_age_ns p segment) := by
  have hattach := attach_cached hcached
  constructor
  · intro h hacc
    constructor
    · rintro ⟨seq, s, hlatest, hfresh, hnew⟩
      have hlast : w.last_seq ≠ some seq := by
        intro hlast
        exact hnew ((hinv.last_iff hattach hlatest).mp hlast)
      have hsent := forward_sends.mpr ⟨cached, seq, s, hattach, hlatest, hfresh, hlast, hacc, rfl⟩
      exact hstale (h.live _ hsent).1
    · rintro segment hregistered ⟨seq, s, hlatest, hfresh, hnew⟩
      have hsent := h.sends segment seq s hregistered hlatest hfresh hnew hacc
      obtain ⟨_, _, _, hsegment, _, _, _, _, hm⟩ := forward_sends.mp hsent
      rw [hattach] at hsegment
      rw [Sent.mk.injEq] at hm
      rw [hregistered, hm.1] at hstale
      exact hstale hsegment.symm
  · intro h
    constructor
    · intro m hm
      obtain ⟨segment, seq, s, hsegment, hlatest, hfresh, hlast, hacc, rfl⟩ :=
        forward_sends.mp hm
      rw [hattach] at hsegment
      obtain rfl := Option.some.inj hsegment
      refine absurd ⟨seq, s, hlatest, hfresh, ?_⟩ (h hacc).1
      rw [← hinv.last_iff hattach hlatest]
      exact hlast
    · intro segment seq s hregistered hlatest hfresh hnew hacc
      exact absurd ⟨seq, s, hlatest, hfresh, hnew⟩ ((h hacc).2 segment hregistered)

theorem follows_iff (hinv : w.Inv) : w.Follows max_age_ns p ↔ w.Current max_age_ns p := by
  match hreader : w.reader with
  | none =>
    have hattach : w.attach = w.registered := by
      unfold World.attach
      rw [hreader]
    constructor
    · intro _ _ cached hcached
      rw [hreader] at hcached
      contradiction
    · intro _
      exact follows_registered hinv hattach
  | some cached =>
    by_cases hcurrent : w.registered = some cached
    · constructor
      · intro _ _ cached' hcached' hstale
        rw [hreader, ← hcurrent] at hcached'
        exact absurd hcached' hstale
      · intro _
        apply follows_registered hinv
        rw [hcurrent]
        exact attach_cached hreader
    · rw [follows_stale hinv hreader hcurrent]
      constructor
      · intro h hacc cached' hcached' _
        rw [hreader] at hcached'
        obtain rfl := Option.some.inj hcached'
        exact h hacc
      · intro h hacc
        exact h hacc cached hreader hcurrent

/-- In every run each sample is sent at most once, and all polls keep the law exactly if all of
them are current. -/
theorem feedback_follows_iff (max_age_ns : ℤ) (events : List (Event F))
    (hvalid : Valid_run max_age_ns events) :
    ((World.run max_age_ns events).sent.map Sent.key).Nodup ∧
      (Each_poll max_age_ns events (World.Follows max_age_ns) ↔
        Each_poll max_age_ns events (World.Current max_age_ns)) := by
  have hnew : (World.new : World F).Inv := by
    refine ⟨?_, ?_, ?_, List.nodup_nil⟩
    · intro m hm
      contradiction
    · intro m hm
      contradiction
    · intro seq hseq
      contradiction
  have hstep : ∀ (w : World F) e, w.Valid e → w.Inv → (w.step max_age_ns e).Inv :=
    fun w e _ h => h.step max_age_ns e
  constructor
  · exact (Runs.run_induct hstep events World.new hnew hvalid).once
  · exact Runs.each_iff hstep (fun w p _ h => follows_iff h) hnew hvalid

/-- One life of the arm node with a sample that is sent, and another under the same name. -/
def two_lives : List (Event ℤ) :=
  [.create, .publish, .append ⟨[1], 0⟩, .poll ⟨0, true⟩, .die, .unlink, .remove,
    .create, .publish, .append ⟨[2], 10⟩, .poll ⟨10, true⟩]

/-- The two lives of the stream are a run: each poll and each step finds what it needs. -/
theorem two_lives_valid : Valid_run 5 two_lives := by
  refine ⟨rfl, trivial, rfl, trivial, trivial, trivial, trivial, rfl, trivial, rfl, trivial,
    trivial⟩

/-- The general theorem at a stream that dies after a sample was sent and is published again under
its name. -/
theorem two_lives_follows_iff :
    ((World.run 5 two_lives).sent.map Sent.key).Nodup ∧
      (Each_poll 5 two_lives (World.Follows 5) ↔ Each_poll 5 two_lives (World.Current 5)) :=
  feedback_follows_iff 5 two_lives two_lives_valid

/-- The sample of the second life is fresh, new and never sent. -/
theorem respawned_stream_not_sent :
    Valid_run 5 two_lives ∧ ¬ Each_poll 5 two_lives (World.Follows 5) := by
  refine ⟨two_lives_valid, fun h => ?_⟩
  have hlaw := h (two_lives.take 10) ⟨10, true⟩ [] rfl
  have hsent := hlaw.sends 1 0 ⟨[2], 10⟩ (by decide) (by decide) (by decide) (by decide) rfl
  revert hsent
  decide

end Law

end DualFlexivControl.Factr.Feedback
