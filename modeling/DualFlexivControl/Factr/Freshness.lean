/-
How old a leader's sample is by the time a consumer takes it: the caches of
`interfaces/factr/client.py`, the poll of `interfaces/factr/interface.py` and its stamp in
`process.py`, and `fresh_leader_positions`.

A frame passes three clocks. The client serves it from its cache until it is older than the
request timeout; the poll stamps everything it collected with one time, after the last side was
asked and the last torque was sent; and the consumer counts the age of a sample from that stamp.
So between the reading of the cache and the stamp there is time that nobody counts, and a leader
that keeps the poll waiting lends its own timeout to the samples of the others.

The receivers, the poll, the consumer and the clock take their steps in any order. Of the streams
only the converted leader positions are modelled; the raw and telemetry streams of the same tick
have other names. The node is not simulated, and the clock is exact.
-/
import Mathlib.Algebra.Order.Floor.Ring
import DualFlexivControl.Collection.Teleop
import DualFlexivControl.Control.Convention
import DualFlexivControl.Factr.Frames
import DualFlexivControl.Lib.Runs

set_option autoImplicit false

namespace DualFlexivControl.Factr.Freshness

open Collection
open Convention (JointConventionCfg ConventionError convert_factr_to_rizon normalize_gripper)
open Daemon (Json)
open Frames (Floats Message Reading handle_stream_frame handle_reading_iff)

/-! ## A leader's sample -/

/-- The functions of numpy and `math`: arrays, angles and square roots. -/
structure Numpy where
  floats : Floats
  angles : Angles Ieee
  roots : RatSqrt

/-- One entry of `FactrCfg.servers`, with the convention of its leader, which
`_validate_convention` has accepted. -/
structure ServerCfg where
  request_timeout_s : ℚ
  dof : ℕ
  raw_to_dfc : JointConventionCfg Ieee
  accepted : ∀ [RatSqrt], Convention.Accepted Ieee.isFinite dof raw_to_dfc

/-- `FactrCfg`, as far as freshness depends on it. -/
structure FactrCfg where
  servers : List String
  server : String → ServerCfg
  max_age_s : ℚ

/-- What `poll` puts into `factr/<side>` for a reading. A reading has a last entry. -/
def converted (np : Numpy) (cfg : FactrCfg) (side : String) (jp : List Ieee) :
    Except ConventionError (Sample Ieee) :=
  letI := np.angles
  letI := np.roots
  match convert_factr_to_rizon jp (cfg.server side).raw_to_dfc with
  | .error e => .error e
  | .ok q => .ok {
      values := q ++ [normalize_gripper (jp.getLastD (.fin 0)) (cfg.server side).raw_to_dfc]
      nonempty := List.append_ne_nil_of_right_ne_nil _ (List.cons_ne_nil _ _) }

/-- A reading of the server's width is converted. -/
theorem converted_ok (np : Numpy) (cfg : FactrCfg) (side : String) {jp : List Ieee}
    (h : jp.length = (cfg.server side).dof) : ∃ value, converted np cfg side jp = .ok value := by
  let := np.angles
  let := np.roots
  have hwidth : (jp.length : ℤ) = (cfg.server side).dof := congrArg Nat.cast h
  have hconvert := Convention.convert_factr_to_rizon_eq (cfg.server side).accepted hwidth
  unfold converted
  rw [hconvert]
  exact ⟨_, rfl⟩

/-! ## The node -/

/-- A time in seconds, in nanoseconds. -/
def ns (seconds : ℚ) : ℚ := seconds * 1000000000

/-- `int(float(cfg.max_age_s) * 1e9)` -/
def FactrCfg.max_age_ns (cfg : FactrCfg) : ℤ :=
  if 0 ≤ ns cfg.max_age_s then ⌊ns cfg.max_age_s⌋ else ⌈ns cfg.max_age_s⌉

/-- `_latest_joint_pos` and `_latest_joint_pos_at`. -/
structure Cached where
  joint_pos : List Ieee
  at_ns : ℤ

/-- A frame that a client's receiver has handled. -/
structure Received where
  side : String
  message : Message
  at_ns : ℤ

/-- A side's entry in the dict that `poll` returns, with the time its cache was read. -/
structure Polled where
  side : String
  value : Sample Ieee
  read_ns : ℤ

/-- The newest sample of a stream, with the time the cache was read that it came from. -/
structure Published where
  value : Sample Ieee
  t_ns : ℤ
  read_ns : ℤ

/-- Where the node's loop is: between ticks; in `poll` with some sides still to ask; inside
`get_joint_positions`; in what follows a reading of one side; writing what was collected; or
ended by an exception. -/
inductive Pc
  | idle
  | polling (todo : List String)
  | waiting (side : String) (deadline : ℚ) (todo : List String)
  | forwarding (todo : List String)
  | writing (t_ns : ℤ) (rest : List Polled)
  | raised

/-- The clock, the clients' caches, the frames handled so far, the node's loop and the newest
sample of every stream. -/
structure World where
  now : ℤ
  cache : String → Option Cached
  received : List Received
  pc : Pc
  sample : List Polled
  streams : String → Option Published

/-- Time passes; a receiver handles a frame; a tick starts; a side is asked; a round of its wait;
its telemetry and torques are done with; the stamp is taken; one sample is written. -/
inductive Event
  | advance (dt : ℕ)
  | receive (side : String) (message : Message)
  | poll
  | ask
  | look
  | forwarded
  | stamp
  | write

section Step

variable (np : Numpy) (cfg : FactrCfg)

/-- A receiver handles a frame; whatever is not a reading, and a lost connection, leave the cached
reading. -/
def receive (w : World) (side : String) (message : Message) : World :=
  let received := w.received ++ [⟨side, message, w.now⟩]
  match handle_stream_frame np.floats side (cfg.server side).dof message with
  | .ok (.reading joint_pos) =>
    { w with
      received := received
      cache := fun s => if s = side then some ⟨joint_pos, w.now⟩ else w.cache s }
  | _ => { w with received := received }

/-- A round of `get_joint_positions`: serve the cache while it is fresh, give up at the deadline,
or wait. -/
def look (w : World) (side : String) (deadline : ℚ) (todo : List String) : World :=
  match w.cache side with
  | some c =>
    if ((w.now - c.at_ns : ℤ) : ℚ) ≤ ns (cfg.server side).request_timeout_s then
      match converted np cfg side c.joint_pos with
      | .ok value =>
        { w with pc := .forwarding todo, sample := w.sample ++ [⟨side, value, w.now⟩] }
      | .error _ => { w with pc := .raised }
    else if deadline ≤ w.now then { w with pc := .polling todo }
    else w
  | none => if deadline ≤ w.now then { w with pc := .polling todo } else w

/-- One write of the tick: all of them bear the tick's stamp. -/
def write (w : World) (t_ns : ℤ) (r : Polled) (rest : List Polled) : World :=
  { w with
    pc := .writing t_ns rest
    streams := fun name =>
      if name = factr_stream_name r.side then some ⟨r.value, t_ns, r.read_ns⟩
      else w.streams name }

def step (w : World) : Event → World
  | .advance dt => { w with now := w.now + dt }
  | .receive side message => receive np cfg w side message
  | .poll =>
    match w.pc with
    | .idle => { w with pc := .polling cfg.servers, sample := [] }
    | _ => w
  | .ask =>
    match w.pc with
    | .polling (side :: todo) =>
      { w with pc := .waiting side (w.now + ns (cfg.server side).request_timeout_s) todo }
    | _ => w
  | .look =>
    match w.pc with
    | .waiting side deadline todo => look np cfg w side deadline todo
    | _ => w
  | .forwarded =>
    match w.pc with
    | .forwarding todo => { w with pc := .polling todo }
    | _ => w
  | .stamp =>
    match w.pc with
    | .polling [] => { w with pc := if w.sample.isEmpty then .idle else .writing w.now w.sample }
    | _ => w
  | .write =>
    match w.pc with
    | .writing _ [] => { w with pc := .idle }
    | .writing t_ns (r :: rest) => write w t_ns r rest
    | _ => w

/-- Before the first tick. -/
def World.new : World := ⟨0, fun _ => none, [], .idle, [], fun _ => none⟩

def run (events : List Event) : World := Runs.run (step np cfg) World.new events

/-- `source.latest(name)`, for a consumer attached to every stream. -/
def World.latest (w : World) (name : String) : Latest Ieee :=
  match w.streams name with
  | none => .empty
  | some p => .sample p.value p.t_ns

end Step

/-! ## Where a value comes from -/

section Trace

variable (np : Numpy) (cfg : FactrCfg)

/-- The value was decoded from a frame of the side, which was at most the request timeout old when
the cache was read. -/
def FromFrame (w : World) (side : String) (value : Sample Ieee) (read_ns : ℤ) : Prop :=
  ∃ message jp at_ns, (⟨side, message, at_ns⟩ : Received) ∈ w.received ∧
    Reading np.floats side (cfg.server side).dof message jp ∧
    converted np cfg side jp = .ok value ∧
    ((read_ns - at_ns : ℤ) : ℚ) ≤ ns (cfg.server side).request_timeout_s

/-- Every cache, and every sample on its way to a stream, came from a frame; and no conversion has
failed. -/
structure Traced (w : World) : Prop where
  alive : w.pc ≠ .raised
  cached : ∀ side c, w.cache side = some c → ∃ message,
    (⟨side, message, c.at_ns⟩ : Received) ∈ w.received ∧
      Reading np.floats side (cfg.server side).dof message c.joint_pos
  collected : ∀ r ∈ w.sample, r.read_ns ≤ w.now ∧ FromFrame np cfg w r.side r.value r.read_ns
  writing : ∀ t_ns rest, w.pc = .writing t_ns rest → ∀ r ∈ rest,
    r.read_ns ≤ t_ns ∧ FromFrame np cfg w r.side r.value r.read_ns
  published : ∀ side p, w.streams (factr_stream_name side) = some p →
    p.read_ns ≤ p.t_ns ∧ FromFrame np cfg w side p.value p.read_ns

variable {np cfg}

theorem factr_stream_name_inj {side side' : String}
    (h : factr_stream_name side = factr_stream_name side') : side = side' := by
  have hnames : "factr/" ++ side = "factr/" ++ side' := h
  simpa using hnames

theorem FromFrame.mono {w w' : World} (hreceived : ∀ f ∈ w.received, f ∈ w'.received)
    {side : String} {value : Sample Ieee} {read_ns : ℤ}
    (h : FromFrame np cfg w side value read_ns) : FromFrame np cfg w' side value read_ns := by
  obtain ⟨message, jp, at_ns, hmem, hrest⟩ := h
  exact ⟨message, jp, at_ns, hreceived _ hmem, hrest⟩

/-- What only lets time pass or frames come in leaves everything traced. -/
theorem Traced.later {w : World} (h : Traced np cfg w) {now : ℤ} (hnow : w.now ≤ now)
    (pc : Pc) (hpc : ∀ t_ns rest, pc ≠ .writing t_ns rest) (halive : pc ≠ .raised) :
    Traced np cfg { w with now := now, pc := pc } where
  alive := halive
  cached := h.cached
  collected r hr := ⟨(h.collected r hr).1.trans hnow, (h.collected r hr).2⟩
  writing t_ns rest hp := absurd hp (hpc t_ns rest)
  published := h.published

theorem Traced.advance {w : World} (h : Traced np cfg w) (dt : ℕ) :
    Traced np cfg { w with now := w.now + dt } where
  alive := h.alive
  cached := h.cached
  collected r hr := by
    obtain ⟨hread, hfrom⟩ := h.collected r hr
    refine ⟨?_, hfrom⟩
    show r.read_ns ≤ w.now + dt
    omega
  writing := h.writing
  published := h.published

theorem Traced.receive {w : World} (h : Traced np cfg w) (side : String)
    (message : Message) : Traced np cfg (receive np cfg w side message) := by
  have hgrow : ∀ f ∈ w.received, f ∈ w.received ++ [⟨side, message, w.now⟩] :=
    fun f hf => List.mem_append_left _ hf
  have hplain : Traced np cfg { w with received := w.received ++ [⟨side, message, w.now⟩] } := by
    refine ⟨h.alive, ?_, ?_, ?_, ?_⟩
    · intro s c hc
      obtain ⟨m, hm, hhandled⟩ := h.cached s c hc
      exact ⟨m, hgrow _ hm, hhandled⟩
    · intro r hr
      obtain ⟨hread, hfrom⟩ := h.collected r hr
      exact ⟨hread, hfrom.mono hgrow⟩
    · intro t_ns rest hp r hr
      obtain ⟨hread, hfrom⟩ := h.writing t_ns rest hp r hr
      exact ⟨hread, hfrom.mono hgrow⟩
    · intro s p hp
      obtain ⟨hread, hfrom⟩ := h.published s p hp
      exact ⟨hread, hfrom.mono hgrow⟩
  -- only a reading of the right length reaches the cache
  unfold Freshness.receive
  cases hhandled : handle_stream_frame np.floats side (cfg.server side).dof message with
  | error e => exact hplain
  | ok frame =>
    cases frame with
    | telemetry fields => exact hplain
    | reading joint_pos =>
      refine ⟨hplain.alive, ?_, hplain.collected, hplain.writing, hplain.published⟩
      intro s c hc
      dsimp only at hc
      by_cases hs : s = side
      · rw [if_pos hs] at hc
        -- the cached reading is the frame just received
        rw [hs, ← Option.some.inj hc]
        exact ⟨message, List.mem_append_right _ List.mem_cons_self,
          handle_reading_iff.1 hhandled⟩
      · rw [if_neg hs] at hc
        exact hplain.cached s c hc

theorem Traced.look {w : World} (h : Traced np cfg w) (side : String) (deadline : ℚ)
    (todo : List String) : Traced np cfg (look np cfg w side deadline todo) := by
  have hgiven_up :
      Traced np cfg (if deadline ≤ w.now then { w with pc := .polling todo } else w) := by
    by_cases hlate : deadline ≤ w.now
    · rw [if_pos hlate]
      exact h.later le_rfl _ (fun _ _ => nofun) nofun
    · rw [if_neg hlate]
      exact h
  unfold Freshness.look
  cases hcache : w.cache side with
  | none => exact hgiven_up
  | some c =>
    dsimp only
    by_cases hfresh : ((w.now - c.at_ns : ℤ) : ℚ) ≤ ns (cfg.server side).request_timeout_s
    · rw [if_pos hfresh]
      -- served: the sample is read now, from the frame that the cache came from
      obtain ⟨message, hmem, hreading⟩ := h.cached side c hcache
      obtain ⟨value, hvalue⟩ := converted_ok np cfg side hreading.length
      rw [hvalue]
      refine ⟨nofun, h.cached, ?_, fun _ _ => nofun, h.published⟩
      intro r hr
      rcases List.mem_append.1 hr with hold | hnew
      · exact h.collected r hold
      · rw [List.mem_singleton.1 hnew]
        exact ⟨le_rfl, message, c.joint_pos, c.at_ns, hmem, hreading, hvalue, hfresh⟩
    · rw [if_neg hfresh]
      exact hgiven_up

theorem Traced.write {w : World} (h : Traced np cfg w) {t_ns : ℤ} {r : Polled}
    {rest : List Polled} (hpc : w.pc = .writing t_ns (r :: rest)) :
    Traced np cfg (write w t_ns r rest) := by
  refine ⟨nofun, h.cached, h.collected, ?_, ?_⟩
  · -- what is still to be written keeps the stamp of the tick
    intro t_ns' rest' hp r' hr'
    obtain ⟨rfl, rfl⟩ := Pc.writing.inj hp
    exact h.writing t_ns (r :: rest) hpc r' (List.mem_cons_of_mem _ hr')
  · intro side p hp
    unfold Freshness.write at hp
    dsimp only at hp
    by_cases hname : factr_stream_name side = factr_stream_name r.side
    · rw [if_pos hname] at hp
      -- the stream that was written: its name gives the side back
      rw [factr_stream_name_inj hname, ← Option.some.inj hp]
      exact h.writing t_ns (r :: rest) hpc r List.mem_cons_self
    · rw [if_neg hname] at hp
      exact h.published side p hp

/-- Every step leaves everything traced: what is cached to its frame, what is published to its
cache, each with its time. -/
theorem Traced.step {w : World} (h : Traced np cfg w) (event : Event) :
    Traced np cfg (step np cfg w event) := by
  cases event with
  | advance dt => exact h.advance dt
  | receive side message => exact h.receive side message
  | poll =>
    unfold Freshness.step
    dsimp only
    split
    · -- a new tick starts with nothing collected
      exact ⟨nofun, h.cached, fun r hr => absurd hr List.not_mem_nil, fun _ _ => nofun,
        h.published⟩
    · exact h
  | ask =>
    unfold Freshness.step
    dsimp only
    split
    · exact h.later le_rfl _ (fun _ _ => nofun) nofun
    · exact h
  | look =>
    unfold Freshness.step
    dsimp only
    split
    · exact h.look _ _ _
    · exact h
  | forwarded =>
    unfold Freshness.step
    dsimp only
    split
    · exact h.later le_rfl _ (fun _ _ => nofun) nofun
    · exact h
  | stamp =>
    unfold Freshness.step
    dsimp only
    split
    · by_cases hempty : w.sample.isEmpty = true
      · rw [if_pos hempty]
        exact h.later le_rfl _ (fun _ _ => nofun) nofun
      · -- the stamp is taken after every cache was read
        rw [if_neg hempty]
        refine ⟨nofun, h.cached, h.collected, ?_, h.published⟩
        intro t_ns rest hp r hr
        obtain ⟨rfl, rfl⟩ := Pc.writing.inj hp
        exact h.collected r hr
    · exact h
  | write =>
    unfold Freshness.step
    dsimp only
    split
    · exact h.later le_rfl _ (fun _ _ => nofun) nofun
    next t_ns r rest hpc => exact h.write hpc
    · exact h

theorem traced_run (events : List Event) : Traced np cfg (run np cfg events) := by
  have hnew : Traced np cfg World.new := by
    refine ⟨nofun, fun _ _ => nofun, fun r hr => absurd hr List.not_mem_nil,
      fun _ _ => nofun, fun _ _ => nofun⟩
  have hstep : ∀ w e, True → Traced np cfg w → Traced np cfg (Freshness.step np cfg w e) :=
    fun w e _ h => h.step e
  have hvalid : ∀ w, Runs.Valid (Freshness.step np cfg) (fun _ _ => True) w events := by
    exact Runs.Valid.of_forall (fun _ _ => trivial) events
  exact Runs.run_induct hstep events World.new hnew (hvalid World.new)

end Trace

/-! ## The bound -/

/-- A fresh sample is at most the age limit old by its stamp. A negative limit counts as none. -/
theorem stamp_bound {cfg : FactrCfg} {t t_ns : ℤ} (h : t - t_ns ≤ cfg.max_age_ns) :
    (t : ℚ) - ns (max 0 cfg.max_age_s) ≤ t_ns := by
  have hcast : ((t - t_ns : ℤ) : ℚ) ≤ (cfg.max_age_ns : ℚ) := Int.cast_le.2 h
  have hmax : (cfg.max_age_ns : ℚ) ≤ ns (max 0 cfg.max_age_s) := by
    unfold FactrCfg.max_age_ns
    by_cases hpos : 0 ≤ ns cfg.max_age_s
    · rw [if_pos hpos]
      -- `int()` truncates towards zero: down from a positive limit
      refine (Int.floor_le _).trans ?_
      unfold ns
      gcongr
      exact le_max_right _ _
    · rw [if_neg hpos]
      -- and up from a negative one, to zero at most
      have hceil : ⌈ns cfg.max_age_s⌉ ≤ 0 := Int.ceil_le.2 (by push_cast; linarith)
      have hzero : (0 : ℚ) ≤ ns (max 0 cfg.max_age_s) := by
        unfold ns
        positivity
      have hcast0 : ((⌈ns cfg.max_age_s⌉ : ℤ) : ℚ) ≤ 0 := by exact_mod_cast hceil
      linarith
  push_cast at hcast
  linarith

/-- In every run, a value that a consumer takes as fresh at a time was decoded from a frame of its
side, handled no earlier than the age limit and the request timeout before that time, and what
the tick took from reading the side's cache to its stamp. -/
theorem leader_freshness (np : Numpy) (cfg : FactrCfg) (events : List Event) (t : ℤ)
    (side : String) (value : Sample Ieee)
    (hfresh : fresh_leader_positions cfg.servers cfg.max_age_ns t
      (run np cfg events).latest side = some value) :
    ∃ p message jp at_ns, (run np cfg events).streams (factr_stream_name side) = some p ∧
      p.value = value ∧ p.read_ns ≤ p.t_ns ∧
      (⟨side, message, at_ns⟩ : Received) ∈ (run np cfg events).received ∧
      Reading np.floats side (cfg.server side).dof message jp ∧
      converted np cfg side jp = .ok value ∧
      (t : ℚ) - ns (max 0 cfg.max_age_s) - ns (cfg.server side).request_timeout_s -
        (p.t_ns - p.read_ns : ℤ) ≤ at_ns := by
  obtain ⟨_, t_ns, hlatest, hage⟩ := fresh_leader_positions_some.1 hfresh
  unfold World.latest at hlatest
  cases hstream : (run np cfg events).streams (factr_stream_name side) with
  | none =>
    rw [hstream] at hlatest
    exact nomatch hlatest
  | some p =>
    rw [hstream] at hlatest
    obtain ⟨rfl, rfl⟩ := Latest.sample.inj hlatest
    -- what is on a stream was read before its stamp, and came from a frame
    obtain ⟨hread, message, jp, at_ns, hmem, hhandled, hvalue, htimeout⟩ :=
      (traced_run events).published side p hstream
    refine ⟨p, message, jp, at_ns, rfl, rfl, hread, hmem, hhandled, hvalue, ?_⟩
    -- the two ages add up, with the time from the read to the stamp between them
    have hstamp := stamp_bound hage
    push_cast at htimeout ⊢
    linarith

/-! ## A leader that keeps the poll waiting -/

/-- Numbers as they are, and angles of which only zero is used. -/
def zero_angles : Numpy where
  floats :=
    { asarray := fun value =>
        match value with
        | .arr xs =>
          match xs.mapM fun x => match x with
            | .float q => some q
            | .int i => some (.fin i)
            | _ => none with
          | some values => .ok (.vector values)
          | none => .error .value_error
        | _ => .error .value_error
      of_string := fun _ => none
      of_int := fun i => some (.fin i) }
  angles := ⟨id, id, id⟩
  roots := ⟨id⟩

/-- Two leaders of one joint, with one second for requests and for the age of a sample. -/
def two_leaders : FactrCfg where
  servers := ["left", "right"]
  server _ :=
    { request_timeout_s := 1
      dof := 2
      raw_to_dfc := ⟨[.fin 0], [], 1, some (.fin 0), some (.fin 1)⟩
      accepted := ⟨by decide, by decide, by decide, by decide, nofun, .fin 0, .fin 1, rfl, rfl,
        rfl, rfl⟩ }
  max_age_s := 1

def left_frame : Json :=
  .obj [("type", .str "reading"), ("side", .str "left"), ("joint_pos", .arr [.int 0, .int 0])]

/-- The left leader's only frame is a second old when its cache is read; the right one is waited
for until its timeout; and the consumer comes a second after the stamp. -/
def right_leader_down : List Event :=
  [.receive "left" (some left_frame), .advance 1000000000, .poll, .ask, .look, .forwarded, .ask,
    .advance 1000000000, .look, .stamp, .write, .advance 1000000000]

theorem right_leader_down_published :
    ((run zero_angles two_leaders right_leader_down).streams (factr_stream_name "left")).map
        (fun p => (p.value.values, p.t_ns, p.read_ns)) =
      some ([.fin 0, .fin 0], 2000000000, 1000000000) := by
  decide +kernel

theorem right_leader_down_fresh :
    ∃ value, fresh_leader_positions two_leaders.servers two_leaders.max_age_ns 3000000000
      (run zero_angles two_leaders right_leader_down).latest "left" = some value := by
  obtain ⟨p, hp, hvalues⟩ := Option.map_eq_some_iff.1 right_leader_down_published
  rw [Prod.mk.injEq, Prod.mk.injEq] at hvalues
  refine ⟨p.value, fresh_leader_positions_some.2 ⟨List.mem_cons_self, p.t_ns, ?_, ?_⟩⟩
  · unfold World.latest
    rw [hp]
  · rw [hvalues.2.1]
    decide +kernel

theorem leader_freshness_right_leader_down : ∃ value p message jp at_ns,
    (run zero_angles two_leaders right_leader_down).streams (factr_stream_name "left") = some p ∧
    p.value = value ∧ p.read_ns ≤ p.t_ns ∧
    (⟨"left", message, at_ns⟩ : Received) ∈
      (run zero_angles two_leaders right_leader_down).received ∧
    Reading zero_angles.floats "left" 2 message jp ∧
    converted zero_angles two_leaders "left" jp = .ok value ∧
    ((3000000000 : ℤ) : ℚ) - ns (max 0 1) - ns 1 - (p.t_ns - p.read_ns : ℤ) ≤ at_ns := by
  obtain ⟨value, hvalue⟩ := right_leader_down_fresh
  exact ⟨value, leader_freshness zero_angles two_leaders right_leader_down 3000000000 "left" value
    hvalue⟩

/-- What the tick took is not within the age limit and the request timeout. -/
theorem waiting_for_another_leader_counts : ¬ ∀ (np : Numpy) (cfg : FactrCfg)
    (events : List Event) (t : ℤ) (side : String) (value : Sample Ieee),
    fresh_leader_positions cfg.servers cfg.max_age_ns t (run np cfg events).latest side =
      some value →
    ∃ message jp at_ns, (⟨side, message, at_ns⟩ : Received) ∈ (run np cfg events).received ∧
      Reading np.floats side (cfg.server side).dof message jp ∧
      converted np cfg side jp = .ok value ∧
      (t : ℚ) - ns cfg.max_age_s - ns (cfg.server side).request_timeout_s ≤ at_ns := by
  intro h
  obtain ⟨value, hvalue⟩ := right_leader_down_fresh
  obtain ⟨message, jp, at_ns, hmem, _, _, hbound⟩ := h _ _ _ _ _ _ hvalue
  have hreceived : (run zero_angles two_leaders right_leader_down).received.map
      (fun f => (f.side, f.at_ns)) = [("left", 0)] := by
    decide +kernel
  have hat : (("left", at_ns) : String × ℤ) ∈ [(("left", 0) : String × ℤ)] := by
    rw [← hreceived]
    exact List.mem_map.2 ⟨_, hmem, rfl⟩
  have hzero : at_ns = 0 := congrArg Prod.snd (List.mem_singleton.1 hat)
  rw [hzero] at hbound
  revert hbound
  decide +kernel

end DualFlexivControl.Factr.Freshness
