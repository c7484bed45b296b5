/-
Camera supervision over a whole session.

A camera unit remembers when its process was spawned and since when it has been stalled; beats of
the tender, deaths of the process and the command that replaces it change these in any order. Each
beat is recorded as the camera saw it ([`Sight`]): whether the process was alive, producing, within
its boot grace, and what the tender did to it. The code keeps no such record. What a unit
remembers is tied to it by one invariant ([`Tended`]): no process was spawned by the tender later
than the unit says, and a unit is stalled since a beat of the record after which the camera was
never seen producing.

Times only have to go forward: a beat is not earlier than the last spawn, and a spawn not earlier
than its beat.
-/
import DualFlexivControl.Daemon.Frame
import Mathlib.Tactic.Linarith

set_option autoImplicit false

namespace DualFlexivControl.Daemon

open Effect

/-! ## One beat of one camera -/

/-- What the tender does to a camera's process. -/
inductive CameraAct where
  | kill
  | spawn (spawned_at : ℚ)
  deriving DecidableEq

/-- `_tend_cameras` for one camera, with what it does to the process written down. -/
def supervise_camera (beat : NodeBeat) (unit : CameraUnit) :
    List CameraAct × CameraUnit × Bool :=
  let producing := unit.alive && beat.fresh unit.name
  let in_grace := unit.alive && beat.now - unit.spawned_at < CAMERA_BOOT_GRACE_S
  if producing || in_grace then
    ([], if producing then { unit with announced_down := false, stalled_since := none } else unit,
      !producing)
  else
    let unit := { unit with announced_down := true }
    let spawned_at := beat.spawned_at unit.name
    if unit.alive then
      let stalled_since := unit.stalled_since.getD beat.now
      let unit := { unit with stalled_since := some stalled_since }
      if beat.now - stalled_since < CAMERA_RESPAWN_S then ([], unit, true)
      else ([.kill, .spawn spawned_at], unit.respawn spawned_at, true)
    else if beat.now - unit.spawned_at < CAMERA_RESPAWN_S then ([], unit, true)
    else ([.spawn spawned_at], unit.respawn spawned_at, true)

theorem supervise_camera_eq (beat : NodeBeat) (unit : CameraUnit) :
    (supervise_camera beat unit).2 = tend_camera beat unit := by
  obtain ⟨name, alive, spawned_at, announced_down, stalled_since⟩ := unit
  unfold supervise_camera tend_camera
  cases alive with
  | false =>
    simp only [Bool.false_and, Bool.or_self, Bool.false_eq_true, if_false]
    split <;> rfl
  | true =>
    simp only [Bool.true_and, if_true]
    by_cases hfresh : beat.fresh name
    · simp [hfresh]
    · by_cases hgrace : beat.now - spawned_at < CAMERA_BOOT_GRACE_S
      · simp [hfresh, hgrace]
      · simp only [hfresh, hgrace, decide_false, Bool.or_self, Bool.false_eq_true, if_false]
        split <;> rfl

/-- Everything a beat can do to a camera. -/
inductive Tending (beat : NodeBeat) (unit : CameraUnit) : List CameraAct → CameraUnit → Prop
  | producing (halive : unit.alive = true) (hfresh : beat.fresh unit.name = true) :
    Tending beat unit [] { unit with announced_down := false, stalled_since := none }
  | booting (halive : unit.alive = true) (hfresh : beat.fresh unit.name = false)
    (hgrace : beat.now - unit.spawned_at < CAMERA_BOOT_GRACE_S) : Tending beat unit [] unit
  | stalled (halive : unit.alive = true) (hfresh : beat.fresh unit.name = false)
    (hgrace : CAMERA_BOOT_GRACE_S ≤ beat.now - unit.spawned_at)
    (hpaced : beat.now - unit.stalled_since.getD beat.now < CAMERA_RESPAWN_S) :
    Tending beat unit [] { unit with
      announced_down := true, stalled_since := some (unit.stalled_since.getD beat.now) }
  | killed (halive : unit.alive = true) (hfresh : beat.fresh unit.name = false)
    (hgrace : CAMERA_BOOT_GRACE_S ≤ beat.now - unit.spawned_at)
    (hlong : CAMERA_RESPAWN_S ≤ beat.now - unit.stalled_since.getD beat.now) :
    Tending beat unit [.kill, .spawn (beat.spawned_at unit.name)]
      (CameraUnit.respawn { unit with announced_down := true } (beat.spawned_at unit.name))
  | dead (halive : unit.alive = false) (hpaced : beat.now - unit.spawned_at < CAMERA_RESPAWN_S) :
    Tending beat unit [] { unit with announced_down := true }
  | respawned (halive : unit.alive = false)
    (hlong : CAMERA_RESPAWN_S ≤ beat.now - unit.spawned_at) :
    Tending beat unit [.spawn (beat.spawned_at unit.name)]
      (CameraUnit.respawn { unit with announced_down := true } (beat.spawned_at unit.name))

theorem supervise_camera_tending (beat : NodeBeat) (unit : CameraUnit) :
    Tending beat unit (supervise_camera beat unit).1 (tend_camera beat unit).1 := by
  rw [← supervise_camera_eq]
  obtain ⟨name, alive, spawned_at, announced_down, stalled_since⟩ := unit
  unfold supervise_camera
  cases alive with
  | false =>
    simp only [Bool.false_and, Bool.or_self, Bool.false_eq_true, if_false]
    by_cases hpaced : beat.now - spawned_at < CAMERA_RESPAWN_S
    · rw [if_pos hpaced]
      exact .dead rfl hpaced
    · rw [if_neg hpaced]
      exact .respawned rfl (not_lt.1 hpaced)
  | true =>
    simp only [Bool.true_and, if_true]
    cases hfresh : beat.fresh name with
    | true =>
      simp only [Bool.true_or, if_true]
      exact .producing rfl hfresh
    | false =>
      by_cases hgrace : beat.now - spawned_at < CAMERA_BOOT_GRACE_S
      · simp only [hgrace, decide_true, Bool.or_true, if_true, Bool.false_eq_true, if_false]
        exact .booting rfl hfresh hgrace
      · simp only [hgrace, decide_false, Bool.or_self, Bool.false_eq_true, if_false]
        by_cases hpaced : beat.now - stalled_since.getD beat.now < CAMERA_RESPAWN_S
        · rw [if_pos hpaced]
          exact .stalled rfl hfresh (not_lt.1 hgrace) hpaced
        · rw [if_neg hpaced]
          exact .killed rfl hfresh (not_lt.1 hgrace) (not_lt.1 hpaced)

/-- A beat reports a camera down unless it is alive and producing, under the name it had. -/
theorem tend_camera_down (beat : NodeBeat) (unit : CameraUnit) :
    (tend_camera beat unit).2 = !(unit.alive && beat.fresh unit.name) ∧
      (tend_camera beat unit).1.name = unit.name := by
  obtain ⟨name, alive, spawned_at, announced_down, stalled_since⟩ := unit
  unfold tend_camera
  cases alive with
  | false =>
    simp only [Bool.false_and, Bool.false_eq_true, if_false]
    split
    · exact ⟨rfl, rfl⟩
    · exact ⟨rfl, rfl⟩
  | true =>
    by_cases hfresh : beat.fresh name
    · simp [hfresh]
    · by_cases hgrace : beat.now - spawned_at < CAMERA_BOOT_GRACE_S
      · simp [hfresh, hgrace]
      · simp only [hfresh, hgrace, Bool.and_false, decide_false, Bool.false_eq_true, if_false,
          if_true]
        split
        · exact ⟨rfl, rfl⟩
        · exact ⟨rfl, rfl⟩

/-! ## The record of one camera -/

/-- A beat as one camera saw it. -/
structure Sight where
  now : ℚ
  alive : Bool
  producing : Bool
  in_grace : Bool
  acts : List CameraAct

def sight (beat : NodeBeat) (unit : CameraUnit) : Sight where
  now := beat.now
  alive := unit.alive
  producing := unit.alive && beat.fresh unit.name
  in_grace := unit.alive && beat.now - unit.spawned_at < CAMERA_BOOT_GRACE_S
  acts := (supervise_camera beat unit).1

/-- Alive, past its boot grace and not producing. -/
structure Sight.Stalled (s : Sight) : Prop where
  alive : s.alive = true
  silent : s.producing = false
  booted : s.in_grace = false

/-- The record ends with a stall that began at `t`. -/
def StalledSince (sights : List Sight) (t : ℚ) : Prop :=
  ∃ before first after, sights = before ++ first :: after ∧ first.now = t ∧
    ∀ s ∈ first :: after, s.Stalled

/-- **What a unit remembers.** -/
structure Tended (unit : CameraUnit) (clock : ℚ) (sights : List Sight) : Prop where
  spawned : unit.spawned_at ≤ clock
  spawns : ∀ s ∈ sights, ∀ t, .spawn t ∈ s.acts → t ≤ unit.spawned_at
  stalled : ∀ t, unit.stalled_since = some t → unit.spawned_at + CAMERA_BOOT_GRACE_S ≤ t ∧
    t ≤ clock ∧ (unit.alive = true → StalledSince sights t)

/-- What the record of a camera must be like: only a long stall is answered by killing, and
spawns are far apart. -/
structure Paced (sights : List Sight) : Prop where
  idle : ∀ s ∈ sights, s.producing = true ∨ s.in_grace = true → s.acts = []
  kills : ∀ before s, before ++ [s] <+: sights → .kill ∈ s.acts → s.Stalled ∧
    ∃ t, t + CAMERA_RESPAWN_S ≤ s.now ∧ StalledSince before t
  spawns : sights.Pairwise fun s s' => ∀ t, .spawn t ∈ s.acts → ∀ t', .spawn t' ∈ s'.acts →
    t + CAMERA_RESPAWN_S ≤ s'.now ∧ s'.now ≤ t'

section Record

variable {unit : CameraUnit} {clock : ℚ} {sights : List Sight} {beat : NodeBeat}

theorem stalledSince_append {t : ℚ} {s : Sight} (h : StalledSince sights t) (hs : s.Stalled) :
    StalledSince (sights ++ [s]) t := by
  obtain ⟨before, first, after, rfl, hfirst, hall⟩ := h
  refine ⟨before, first, after ++ [s], by simp, hfirst, fun s' hs' => ?_⟩
  rw [← List.cons_append] at hs'
  rcases List.mem_append.1 hs' with h | h
  · exact hall s' h
  · rw [List.mem_singleton.1 h]
    exact hs

/-- The beat of a camera that is alive, silent and past its grace. -/
theorem sight_stalled (halive : unit.alive = true) (hfresh : beat.fresh unit.name = false)
    (hgrace : CAMERA_BOOT_GRACE_S ≤ beat.now - unit.spawned_at) : (sight beat unit).Stalled where
  alive := halive
  silent := by rw [sight, halive, hfresh, Bool.and_false]
  booted := by
    show (unit.alive && decide _) = false
    rw [halive, decide_eq_false (not_lt.2 hgrace), Bool.and_false]

theorem mem_snoc {s : Sight} {x : Sight} (h : x ∈ sights ++ [s]) : x ∈ sights ∨ x = s :=
  (List.mem_append.1 h).imp_right List.mem_singleton.1

/-- **A beat keeps what a unit remembers**: since when it has been stalled, and when it was last
spawned, as the record of the beats has it. -/
theorem tended_beat (h : Tended unit clock sights) (hnow : clock ≤ beat.now)
    (hspawn : beat.now ≤ beat.spawned_at unit.name) {clock' : ℚ}
    (hclock : beat.spawned_at unit.name ≤ clock') :
    Tended (tend_camera beat unit).1 clock' (sights ++ [sight beat unit]) := by
  have hspawned := h.spawned
  have hacts : (sight beat unit).acts = (supervise_camera beat unit).1 := rfl
  have htending := supervise_camera_tending beat unit
  rw [← hacts] at htending
  generalize hunit : (tend_camera beat unit).1 = unit' at htending ⊢
  generalize hs : (sight beat unit).acts = acts at htending
  -- a beat that spawns nothing leaves the spawns as they were
  have hquiet : acts = [] → unit'.spawned_at = unit.spawned_at →
      ∀ s ∈ sights ++ [sight beat unit], ∀ t, .spawn t ∈ s.acts → t ≤ unit'.spawned_at := by
    intro hnil hsame s hmem t ht
    rw [hsame]
    rcases mem_snoc hmem with hmem | rfl
    · exact h.spawns s hmem t ht
    · rw [hs, hnil] at ht
      exact absurd ht List.not_mem_nil
  have hfresh_spawn : (∀ t, .spawn t ∈ acts → t = beat.spawned_at unit.name) →
      unit'.spawned_at = beat.spawned_at unit.name →
      ∀ s ∈ sights ++ [sight beat unit], ∀ t, .spawn t ∈ s.acts → t ≤ unit'.spawned_at := by
    intro hall hsame s hmem t ht
    rw [hsame]
    rcases mem_snoc hmem with hmem | rfl
    · linarith [h.spawns s hmem t ht]
    · rw [hs] at ht
      exact (hall t ht).le
  cases htending with
  | producing halive hfresh =>
    exact ⟨by dsimp only; linarith, hquiet rfl rfl, fun t ht => nomatch ht⟩
  | booting halive hfresh hgrace =>
    refine ⟨by linarith, hquiet rfl rfl, fun t ht => ?_⟩
    obtain ⟨hbooted, hbefore, -⟩ := h.stalled t ht
    linarith
  | stalled halive hfresh hgrace hpaced =>
    refine ⟨by dsimp only; linarith, hquiet rfl rfl, fun t ht => ?_⟩
    have hstalled := sight_stalled halive hfresh hgrace
    cases hsince : unit.stalled_since with
    | none =>
      rw [hsince, Option.getD_none] at ht
      cases ht
      refine ⟨by dsimp only; linarith, by linarith, fun _ => ⟨sights, _, [], rfl, rfl, ?_⟩⟩
      intro s hmem
      rw [List.mem_singleton.1 hmem]
      exact hstalled
    | some t' =>
      rw [hsince, Option.getD_some] at ht
      cases ht
      obtain ⟨hbooted, hbefore, hstall⟩ := h.stalled t hsince
      exact ⟨hbooted, by linarith, fun _ => stalledSince_append (hstall halive) hstalled⟩
  | killed halive hfresh hgrace hlong =>
    exact ⟨hclock, hfresh_spawn (fun t ht => by simpa using ht) rfl, fun t ht => nomatch ht⟩
  | dead halive hpaced =>
    refine ⟨by dsimp only; linarith, hquiet rfl rfl, fun t ht => ?_⟩
    obtain ⟨hbooted, hbefore, -⟩ := h.stalled t ht
    exact ⟨hbooted, by linarith, fun hcon => absurd (halive.symm.trans hcon) (by simp)⟩
  | respawned halive hlong =>
    exact ⟨hclock, hfresh_spawn (fun t ht => by simpa using ht) rfl, fun t ht => nomatch ht⟩

/-- **A beat keeps the record paced**: a kill comes after a stall of the full time, and a spawn
after the last one by as much. -/
theorem paced_beat (h : Tended unit clock sights) (hpaced : Paced sights)
    (hspawn : beat.now ≤ beat.spawned_at unit.name) :
    Paced (sights ++ [sight beat unit]) := by
  have htending := supervise_camera_tending beat unit
  have hacts : (sight beat unit).acts = (supervise_camera beat unit).1 := rfl
  rw [← hacts] at htending
  generalize (tend_camera beat unit).1 = unit' at htending
  refine ⟨fun s hmem hidle => ?_, fun before s hprefix hkill => ?_, ?_⟩
  · -- nothing is done to a camera that is idle in this beat
    rcases mem_snoc hmem with hmem | rfl
    · exact hpaced.idle s hmem hidle
    · -- an idle camera is in neither of the branches that act
      have hbusy : (sight beat unit).producing = (unit.alive && beat.fresh unit.name) := rfl
      have hgraced : (sight beat unit).in_grace =
          (unit.alive && decide (beat.now - unit.spawned_at < CAMERA_BOOT_GRACE_S)) := rfl
      rw [hbusy, hgraced] at hidle
      generalize hs : (sight beat unit).acts = acts at htending ⊢
      cases htending with
      | killed halive hfresh hgrace hlong =>
        rw [hfresh, decide_eq_false (not_lt.2 hgrace), Bool.and_false] at hidle
        rcases hidle with h | h <;> exact absurd h Bool.false_ne_true
      | respawned halive hlong =>
        rw [halive, Bool.false_and, Bool.false_and] at hidle
        rcases hidle with h | h <;> exact absurd h Bool.false_ne_true
      | _ => rfl
  · -- a kill has a stall of its length behind it
    rcases List.prefix_concat_iff.1 hprefix with heq | hprefix
    · obtain ⟨rfl, hs⟩ := List.append_inj' heq rfl
      rw [List.singleton_inj.1 hs] at hkill ⊢
      generalize hs : (sight beat unit).acts = acts at htending hkill
      cases htending with
      | killed halive hfresh hgrace hlong =>
        refine ⟨sight_stalled halive hfresh hgrace, ?_⟩
        cases hsince : unit.stalled_since with
        | none =>
          rw [hsince, Option.getD_none, sub_self] at hlong
          exact absurd hlong (by norm_num [CAMERA_RESPAWN_S])
        | some since =>
          rw [hsince, Option.getD_some] at hlong
          obtain ⟨-, -, hstall⟩ := h.stalled since hsince
          exact ⟨since, by show _ ≤ beat.now; linarith, hstall halive⟩
      | respawned halive hlong => simp at hkill
      | _ => exact absurd hkill List.not_mem_nil
    · exact hpaced.kills before s hprefix hkill
  · refine List.pairwise_append.2 ⟨hpaced.spawns, List.pairwise_singleton _ _, ?_⟩
    -- two spawns are as far apart as the later one waited
    intro s hs s' hs' t ht t' ht'
    rw [List.mem_singleton.1 hs'] at ht' ⊢
    have hlast := h.spawns s hs t ht
    generalize hacts' : (sight beat unit).acts = acts at htending ht'
    show _ ≤ beat.now ∧ beat.now ≤ t'
    cases htending with
    | killed halive hfresh hgrace hlong =>
      rw [show t' = beat.spawned_at unit.name by simpa using ht']
      refine ⟨?_, hspawn⟩
      cases hsince : unit.stalled_since with
      | none =>
        rw [hsince, Option.getD_none, sub_self] at hlong
        exact absurd hlong (by norm_num [CAMERA_RESPAWN_S])
      | some since =>
        rw [hsince, Option.getD_some] at hlong
        have hbooted := (h.stalled since hsince).1
        have hgrace0 : (0 : ℚ) ≤ CAMERA_BOOT_GRACE_S := by norm_num [CAMERA_BOOT_GRACE_S]
        linarith
    | respawned halive hlong =>
      rw [show t' = beat.spawned_at unit.name by simpa using ht']
      exact ⟨by linarith, hspawn⟩
    | _ => exact absurd ht' List.not_mem_nil

theorem tended_later {clock' : ℚ} (h : Tended unit clock sights) (hclock : clock ≤ clock') :
    Tended unit clock' sights where
  spawned := h.spawned.trans hclock
  spawns := h.spawns
  stalled t ht := by
    obtain ⟨hbooted, hbefore, hstall⟩ := h.stalled t ht
    exact ⟨hbooted, hbefore.trans hclock, hstall⟩

/-- The process dies. -/
theorem tended_death (h : Tended unit clock sights) :
    Tended { unit with alive := false } clock sights where
  spawned := h.spawned
  spawns := h.spawns
  stalled t ht := by
    obtain ⟨hbooted, hbefore, -⟩ := h.stalled t ht
    exact ⟨hbooted, hbefore, fun hcon => nomatch hcon⟩

/-- The process is replaced on request. -/
theorem tended_respawn {spawned_at clock' : ℚ} (h : Tended unit clock sights)
    (hspawn : clock ≤ spawned_at) (hclock : spawned_at ≤ clock') :
    Tended (unit.respawn spawned_at) clock' sights where
  spawned := hclock
  spawns s hs t ht := (h.spawns s hs t ht).trans (h.spawned.trans hspawn)
  stalled _ ht := nomatch ht

theorem paced_nil : Paced [] where
  idle _ hs := absurd hs List.not_mem_nil
  kills before s hprefix _ := by simp at hprefix
  spawns := List.Pairwise.nil

end Record

/-! ## The daemon's cameras -/

/-- A beat of the tender: what it saw, the units before it and `cameras_down` after it. -/
structure CameraBeat where
  beat : NodeBeat
  before : List CameraUnit
  down : List String

/-- The beats as camera number `i` saw them. -/
def sights (log : List CameraBeat) (i : ℕ) : List Sight :=
  log.filterMap fun entry => entry.before[i]?.map (sight entry.beat)

/-- A session with its clock and the beats of the tender, oldest first. Times go forward: a beat is
not earlier than anything before it, and a node is spawned not earlier than the beat or the
command that spawns it. -/
inductive Supervised (cfg : Config) : SessionDaemon → ℚ → List CameraBeat → Prop
  | init (arms : List ArmUnit) (cameras : List CameraUnit) (clock : ℚ)
    (hnew : ∀ unit ∈ cameras, unit.spawned_at ≤ clock ∧ unit.stalled_since = none) :
    Supervised cfg (.init arms cameras) clock []
  | beat {d d' : SessionDaemon} {clock clock' : ℚ} {log : List CameraBeat} (beat : NodeBeat)
    (h : Supervised cfg d clock log) (hserves : Serves cfg d (.tend_cameras beat) d')
    (hnow : clock ≤ beat.now) (hclock : beat.now ≤ clock')
    (hspawn : ∀ unit ∈ d.cameras, beat.now ≤ beat.spawned_at unit.name ∧
      beat.spawned_at unit.name ≤ clock') :
    Supervised cfg d' clock' (log ++ [⟨beat, d.cameras, d'.cameras_down⟩])
  | event {d d' : SessionDaemon} {clock clock' : ℚ} {log : List CameraBeat} (ev : Event)
    (h : Supervised cfg d clock log) (hserves : Serves cfg d ev d')
    (hother : ∀ beat, ev ≠ .tend_cameras beat) (hclock : clock ≤ clock')
    (hspawn : ∀ fields beat, ev = .command fields beat →
      clock ≤ beat.spawned_at ∧ beat.spawned_at ≤ clock') :
    Supervised cfg d' clock' log

section Session

variable {cfg : Config} {d d' : SessionDaemon} {clock : ℚ} {log : List CameraBeat}

theorem sights_append (entry : CameraBeat) {i : ℕ} {unit : CameraUnit}
    (h : entry.before[i]? = some unit) :
    sights (log ++ [entry]) i = sights log i ++ [sight entry.beat unit] := by
  rw [sights, List.filterMap_append, List.filterMap_cons, h]
  rfl

/-- What another event can do to a unit: nothing, kill it, or replace it on the operator's command.
-/
theorem camera_event {ev : Event} (hserves : Serves cfg d ev d')
    (hother : ∀ beat, ev ≠ .tend_cameras beat) {i : ℕ} {unit' : CameraUnit}
    (hunit : d'.cameras[i]? = some unit') : ∃ unit, d.cameras[i]? = some unit ∧
      (unit' = unit ∨ unit' = { unit with alive := false } ∨
        ∃ fields beat, ev = .command fields beat ∧ unit' = unit.respawn beat.spawned_at) := by
  have hd' : (exec (cfg.handle ev) d).2 = d' := by rw [hserves.2]
  rw [← hd'] at hunit
  -- only three events have to do with cameras
  by_cases hby : ev.BySide d
  · rw [(aside_handle cfg d ev hby).cameras] at hunit
    exact ⟨unit', hunit, .inl rfl⟩
  cases ev with
  | watch_arm_dropout status =>
    have hsame : (exec (cfg.handle (.watch_arm_dropout status)) d).2.cameras = d.cameras :=
      same_cameras_watch status d
    rw [hsame] at hunit
    exact ⟨unit', hunit, .inl rfl⟩
  | tend_cameras beat => exact absurd rfl (hother beat)
  -- a death changes the named camera alone
  | camera_death name =>
    change (d.cameras.map _)[i]? = some unit' at hunit
    rw [List.getElem?_map, Option.map_eq_some_iff] at hunit
    obtain ⟨unit, hsome, rfl⟩ := hunit
    refine ⟨unit, hsome, ?_⟩
    by_cases hname : unit.name = name
    · rw [if_pos hname]
      exact .inr (.inl rfl)
    · rw [if_neg hname]
      exact .inl rfl
  -- so does a respawn that was asked for
  | command fields beat =>
    rw [exec_handle_command] at hunit
    unfold Config.dispatch at hunit
    rw [not_not.1 hby] at hunit
    rcases cameras_respawn_camera (d.next fields) beat d.receive with hsame | ⟨name, hmap⟩
    · rw [hsame] at hunit
      exact ⟨unit', hunit, .inl rfl⟩
    · rw [hmap, List.getElem?_map, Option.map_eq_some_iff] at hunit
      obtain ⟨unit, hsome, rfl⟩ := hunit
      refine ⟨unit, hsome, ?_⟩
      by_cases hname : unit.name = name
      · rw [if_pos hname]
        exact .inr (.inr ⟨fields, beat, rfl, rfl⟩)
      · rw [if_neg hname]
        exact .inl rfl
  | _ => exact absurd trivial hby

/-- **The run invariant**, camera by camera: what a unit remembers agrees with the beats and events
so far, and these are paced. -/
theorem supervised_tended (h : Supervised cfg d clock log) :
    ∀ (i : ℕ) (unit : CameraUnit), d.cameras[i]? = some unit →
      Tended unit clock (sights log i) ∧ Paced (sights log i) := by
  induction h with
  | init arms cameras clock hnew =>
    intro i unit hunit
    obtain ⟨hspawned, hstalled⟩ := hnew unit (List.mem_of_getElem? hunit)
    refine ⟨⟨hspawned, fun s hs => absurd hs List.not_mem_nil, fun t ht => ?_⟩, paced_nil⟩
    rw [hstalled] at ht
    exact nomatch ht
  | @beat d d' clock clock' log beat h hserves hnow hclock hspawn ih =>
    intro i unit' hunit'
    have hcameras : d'.cameras = (d.cameras.map (tend_camera beat)).map Prod.fst := by
      have hd' : (exec (cfg.handle (.tend_cameras beat)) d).2 = d' := by rw [hserves.2]
      rw [← hd']
      rfl
    rw [hcameras, List.map_map, List.getElem?_map, Option.map_eq_some_iff] at hunit'
    obtain ⟨unit, hunit, rfl⟩ := hunit'
    obtain ⟨htended, hpaced⟩ := ih i unit hunit
    obtain ⟨hlate, hearly⟩ := hspawn unit (List.mem_of_getElem? hunit)
    rw [sights_append ⟨beat, d.cameras, d'.cameras_down⟩ hunit]
    exact ⟨tended_beat htended hnow hlate hearly, paced_beat htended hpaced hlate⟩
  | @event d d' clock clock' log ev h hserves hother hclock hspawn ih =>
    intro i unit' hunit'
    obtain ⟨unit, hunit, hunit'⟩ := camera_event hserves hother hunit'
    obtain ⟨htended, hpaced⟩ := ih i unit hunit
    refine ⟨?_, hpaced⟩
    rcases hunit' with rfl | rfl | ⟨fields, beat, rfl, rfl⟩
    · exact tended_later htended hclock
    · exact tended_death (tended_later htended hclock)
    · obtain ⟨hlate, hearly⟩ := hspawn fields beat rfl
      exact tended_respawn htended hlate hearly

/-- What a beat reports: the cameras that were not alive and producing at it. -/
theorem supervised_down (h : Supervised cfg d clock log) : ∀ entry ∈ log,
    entry.down = sorted ((entry.before.filter fun unit =>
      !(unit.alive && entry.beat.fresh unit.name)).map CameraUnit.name) := by
  induction h with
  | init arms cameras clock hnew => exact fun entry h => absurd h List.not_mem_nil
  | event ev h hserves hother hclock hspawn ih => exact ih
  | @beat d d' clock clock' log beat h hserves hnow hclock hspawn ih =>
    intro entry hentry
    rcases List.mem_append.1 hentry with hentry | hentry
    · exact ih entry hentry
    · rw [List.mem_singleton.1 hentry]
      have hd' : (exec (cfg.handle (.tend_cameras beat)) d).2 = d' := by rw [hserves.2]
      rw [← hd']
      show down_names CameraUnit.name (d.cameras.map (tend_camera beat)) = _
      unfold down_names
      rw [List.filter_map, List.map_map]
      have hfilter : d.cameras.filter (Prod.snd ∘ tend_camera beat) =
          d.cameras.filter fun unit => !(unit.alive && beat.fresh unit.name) :=
        List.filter_congr fun unit _ => (tend_camera_down beat unit).1
      rw [hfilter]
      exact congrArg sorted (List.map_congr_left fun unit _ => (tend_camera_down beat unit).2)

/-- **Camera supervision.** After any beats, deaths and commands: no camera that was producing, or
within its boot grace, was acted on; one was killed only after a stall of `CAMERA_RESPAWN_S`; two
spawns of the tender are as far apart; and every beat reported the cameras that were not alive and
producing. -/
theorem tend_cameras_supervises (cfg : Config) (d : SessionDaemon) (clock : ℚ)
    (log : List CameraBeat) (h : Supervised cfg d clock log) :
    (∀ i < d.cameras.length, Paced (sights log i)) ∧
      ∀ entry ∈ log, entry.down = sorted ((entry.before.filter fun unit =>
        !(unit.alive && entry.beat.fresh unit.name)).map CameraUnit.name) := by
  refine ⟨fun i hi => ?_, supervised_down h⟩
  exact (supervised_tended h i d.cameras[i] (List.getElem?_eq_getElem hi)).2

end Session

/-! ## A camera that stalls -/

/-- A camera node just spawned. -/
def front_camera : CameraUnit where
  name := "zed:front"
  alive := true
  spawned_at := 0
  announced_down := false
  stalled_since := none

/-- A beat that finds no camera producing. -/
def silent_beat (now : ℚ) : NodeBeat where
  now := now
  fresh := fun _ => false
  spawned_at := fun _ => now

/-- Past its boot grace, and silent at three beats. -/
def front_session : SessionDaemon :=
  left_session.after (.init [] [front_camera]) [.tend_cameras (silent_beat 25),
    .tend_cameras (silent_beat 40), .tend_cameras (silent_beat 60)]

/-- The third beat kills and respawns it. -/
example : (sights [⟨silent_beat 60, [{ front_camera with stalled_since := some 25 }], []⟩] 0).map
    Sight.acts = [[.kill, .spawn 60]] := by decide +kernel

/-- A front camera that is silent past its boot grace: three beats are on record, paced, and each
has reported it as down. -/
theorem tend_cameras_supervises_front : ∃ log, Supervised left_session front_session 60 log ∧
    log.length = 3 ∧ (∀ i < front_session.cameras.length, Paced (sights log i)) ∧
      ∀ entry ∈ log, entry.down = sorted ((entry.before.filter fun unit =>
        !(unit.alive && entry.beat.fresh unit.name)).map CameraUnit.name) := by
  have hnew : Supervised left_session (.init [] [front_camera]) 0 [] := by
    refine .init [] [front_camera] 0 fun unit hunit => ?_
    rw [List.mem_singleton.1 hunit]
    exact ⟨le_rfl, rfl⟩
  have hbeat : ∀ {d : SessionDaemon} {clock : ℚ} {log : List CameraBeat} (now : ℚ),
      Supervised left_session d clock log → d.fatal = false → clock ≤ now →
      ∃ entry, Supervised left_session (left_session.after d [.tend_cameras (silent_beat now)]) now
        (log ++ [entry]) := by
    intro d clock log now h hfatal hnow
    exact ⟨_, h.beat (silent_beat now) (serves_after hfatal rfl) hnow le_rfl
      fun unit _ => ⟨le_rfl, le_rfl⟩⟩
  obtain ⟨first, h25⟩ := hbeat 25 hnew rfl (by norm_num)
  obtain ⟨second, h40⟩ := hbeat 40 h25 rfl (by norm_num)
  obtain ⟨third, h60⟩ := hbeat 60 h40 rfl (by norm_num)
  exact ⟨[] ++ [first] ++ [second] ++ [third], h60, rfl,
    tend_cameras_supervises left_session front_session 60 _ h60⟩

end DualFlexivControl.Daemon
