/-
The crash-loop brake of `SessionManager.ensure`.

A daemon that dies on its own is respawned at most every ten seconds, and after three early
deaths in a row not at all until the manager is re-armed. But `_harvest_exit_locked` measures a
lifetime from its spawn to the call that notices the death, not to the death. A daemon that died
at once and is noticed late counts as one that ran, and the count starts again at one. So the
brake holds for a crash loop when the last two of its deaths were noticed in time ([`Timely`]),
and a dashboard that polls more rarely never gives up.
-/
import Mathlib.Tactic.Linarith
import Mathlib.Tactic.NormNum
import Mathlib.Data.List.Chain
import DualFlexivControl.Dashboard.Manager

set_option autoImplicit false

namespace DualFlexivControl.Dashboard

/-! ## Early deaths -/

/-- The process died within `_EARLY_DEATH_S` of its spawn. -/
def Lifetime.Early (life : Lifetime) : Prop :=
  ∃ t, life.died_at = some t ∧ t - life.spawned_at < EARLY_DEATH_S

/-- Its death was noticed within `_EARLY_DEATH_S` of its spawn. -/
def Lifetime.NoticedEarly (life : Lifetime) : Prop :=
  ∃ t, life.noticed_at = some t ∧ t - life.spawned_at < EARLY_DEATH_S

/-- The last `_MAX_EARLY_DEATHS` processes since the re-arm each died early. -/
def World.CrashLoop (w : World) : Prop :=
  MAX_EARLY_DEATHS ≤ w.era.length ∧ ∀ life ∈ w.era.take MAX_EARLY_DEATHS, life.Early

/-- A call with the same target spawns nothing after a crash loop. -/
def World.Braked (w : World) (call : Call) : Prop :=
  w.same_target call → w.CrashLoop → (w.ensure call).2.spawned = none

/-- Where the backoff is over and a process can be started, all deaths of the loop but the first
were noticed early, the last one perhaps only by this call. -/
def World.Timely (w : World) (call : Call) : Prop :=
  w.same_target call → w.CrashLoop →
    RESPAWN_BACKOFF_S ≤ w.now + call.lag - w.manager.spawned_at → call.popen ≠ none →
      ∀ life ∈ w.harvest_exit.era.take (MAX_EARLY_DEATHS - 1), life.NoticedEarly

/-- The count of early deaths, as the lifetimes since the re-arm make it. -/
def streak : List Lifetime → ℕ
  | [] => 0
  | life :: rest =>
    match life.noticed_at with
    | none => streak rest
    | some t => World.count_death (streak rest) (t - life.spawned_at)

/-- The count has reached `k` when all but the first of the last `k` deaths were noticed early. -/
theorem le_streak_iff {era : List Lifetime} :
    ∀ {k : ℕ}, 0 < k → (∀ life ∈ era, ∃ t, life.noticed_at = some t) →
      (k ≤ streak era ↔ k ≤ era.length ∧ ∀ life ∈ era.take (k - 1), life.NoticedEarly) := by
  induction era with
  | nil =>
    intro k hk _
    rw [streak, List.length_nil, List.take_nil]
    constructor
    · intro h
      omega
    · rintro ⟨h, _⟩
      omega
  | cons life rest ih =>
    intro k hk hnoticed
    obtain ⟨t, ht⟩ := hnoticed life List.mem_cons_self
    have hrest : ∀ l ∈ rest, ∃ t, l.noticed_at = some t :=
      fun l hl => hnoticed l (List.mem_cons_of_mem _ hl)
    unfold streak World.count_death
    rw [ht, List.length_cons]
    dsimp only
    obtain ⟨n, rfl⟩ : ∃ n, k = n + 1 := ⟨k - 1, by omega⟩
    rw [Nat.add_sub_cancel]
    -- one death is a streak of one, early or not
    by_cases hn : n = 0
    · subst hn
      rw [List.take_zero]
      have hone : 0 + 1 ≤ if t - life.spawned_at < EARLY_DEATH_S then streak rest + 1 else 1 := by
        by_cases hearly : t - life.spawned_at < EARLY_DEATH_S
        · rw [if_pos hearly]
          omega
        · rw [if_neg hearly]
      exact ⟨fun _ => ⟨by omega, fun l hl => absurd hl List.not_mem_nil⟩, fun _ => hone⟩
    · have hpos : 0 < n := Nat.pos_of_ne_zero hn
      obtain ⟨m, rfl⟩ : ∃ m, n = m + 1 := ⟨n - 1, by omega⟩
      rw [List.take_succ_cons, List.forall_mem_cons]
      have hih := ih hpos hrest
      rw [Nat.add_sub_cancel] at hih
      -- a longer streak goes on with the rest only while the deaths are early
      by_cases hearly : t - life.spawned_at < EARLY_DEATH_S
      · have hlife : life.NoticedEarly := ⟨t, ht, hearly⟩
        rw [if_pos hearly, Nat.add_le_add_iff_right, Nat.add_le_add_iff_right, hih]
        exact ⟨fun h => ⟨h.1, hlife, h.2⟩, fun h => ⟨h.1, h.2.2⟩⟩
      · rw [if_neg hearly]
        constructor
        · intro h
          omega
        · rintro ⟨_, ⟨t', ht', hearly'⟩, _⟩
          rw [ht] at ht'
          rw [Option.some.inj ht'] at hearly
          exact absurd hearly' hearly

/-! ## The manager's books -/

/-- Consecutive spawns: one made without a change of target waits for the backoff. -/
def Spawn.Paced (newer older : Spawn) : Prop :=
  newer.automatic = true → RESPAWN_BACKOFF_S ≤ newer.time - older.time

/-- The count and the verdict are those of the lifetimes, of which only the process that the
manager still holds may be unnoticed. -/
structure World.Books (w : World) : Prop where
  idle : w.manager.proc = none → ∀ life ∈ w.era, ∃ t, life.noticed_at = some t
  held : ∀ pid, w.manager.proc = some pid → w.manager.gave_up = false ∧
    ∃ life rest, w.era = life :: rest ∧ life.noticed_at = none ∧
      life.spawned_at = w.manager.spawned_at ∧ (w.exited = none → life.died_at = none) ∧
      ∀ l ∈ rest, ∃ t, l.noticed_at = some t
  count : w.manager.early_deaths = streak w.era
  verdict : w.manager.gave_up = true ↔ MAX_EARLY_DEATHS ≤ w.manager.early_deaths
  last : ∀ s ∈ w.spawns.head?, s.time = w.manager.spawned_at
  paced : w.spawns.IsChain Spawn.Paced

theorem World.Initial.books {w : World} (h : w.Initial) : w.Books where
  idle _ life hlife := by
    rw [h.era] at hlife
    exact absurd hlife List.not_mem_nil
  held pid hpid := by
    rw [h.manager] at hpid
    exact absurd hpid (by simp)
  count := by
    rw [h.manager, h.era]
    rfl
  verdict := by
    rw [h.manager]
    decide
  last s hs := by
    rw [h.spawns] at hs
    exact absurd hs (by simp)
  paced := by
    rw [h.spawns]
    exact List.IsChain.nil

/-- A manager without a process forgets the deaths, and what is on record of its spawns stays apart
as it was. -/
theorem World.books_rearm {w : World} (hproc : w.manager.proc = none)
    (hlast : ∀ s ∈ w.spawns.head?, s.time = w.manager.spawned_at)
    (hpaced : w.spawns.IsChain Spawn.Paced) : w.rearm.Books where
  idle _ life hlife := absurd hlife List.not_mem_nil
  held pid hpid := by
    have hnone : w.rearm.manager.proc = none := hproc
    rw [hnone] at hpid
    exact absurd hpid (by simp)
  count := rfl
  verdict := by
    show false = true ↔ MAX_EARLY_DEATHS ≤ 0
    decide
  last := hlast
  paced := hpaced

theorem World.Books.elapse {w : World} (h : w.Books) (d : ℚ) : (w.elapse d).Books :=
  ⟨h.idle, h.held, h.count, h.verdict, h.last, h.paced⟩

/-- A death is counted when it is noticed, once, and as early as that makes it. -/
theorem World.Books.harvest {w : World} (h : w.Books) : w.harvest_exit.Books := by
  unfold World.harvest_exit
  cases hproc : w.manager.proc with
  | none => exact h
  | some pid =>
    obtain ⟨hgave, life, rest, hera, hnoticed, hspawned, _, hrest⟩ := h.held pid hproc
    have hcount : w.manager.early_deaths = streak rest := by
      rw [h.count, hera, streak, hnoticed]
    dsimp only
    rw [hgave, Bool.false_or, hera]
    refine ⟨?_, fun pid hpid => absurd hpid (by simp), ?_, decide_eq_true_iff, h.last, h.paced⟩
    · intro _ l hl
      rcases List.mem_cons.1 hl with rfl | hl
      · exact ⟨w.now, rfl⟩
      · exact hrest l hl
    · rw [hcount, ← hspawned]
      rfl

/-- A process is started where none is held and the brake is off. -/
theorem World.Books.spawn {w : World} (h : w.Books) (call : Call) {automatic : Bool}
    (hproc : w.manager.proc = none) (hgave : w.manager.gave_up = false)
    (hpaced : automatic = true → RESPAWN_BACKOFF_S ≤ w.now - w.manager.spawned_at) :
    (w.spawn call automatic).Books := by
  unfold World.spawn
  cases call.popen with
  | none => exact h
  | some pid =>
    refine ⟨fun hnone => absurd hnone (by simp), ?_, h.count, h.verdict, ?_, ?_⟩
    · intro _ _
      exact ⟨hgave, _, _, rfl, rfl, rfl, fun _ => rfl, h.idle hproc⟩
    · intro s hs
      rw [← Option.some.inj hs]
    · refine List.isChain_cons.2 ⟨?_, h.paced⟩
      intro older holder hauto
      rw [h.last older holder]
      exact hpaced hauto

theorem World.Books.ensure {w : World} (h : w.Books) {call : Call} (htook : 0 ≤ call.took) :
    (w.ensure call).1.Books := by
  have hharvest := h.harvest
  obtain ⟨hnone, hnow, hspawned, -⟩ := w.harvest_fields
  refine World.ensure_cases call h ?_ ?_ hharvest (hharvest.elapse call.lag) ?_
  · have hrearm : w.shutdown.rearm.Books := World.books_rearm rfl h.last h.paced
    exact (hrearm.elapse call.took).spawn call rfl rfl (fun hauto => absurd hauto (by simp))
  · have hrearm : w.harvest_exit.rearm.Books :=
      World.books_rearm hnone hharvest.last hharvest.paced
    exact (hrearm.elapse call.took).spawn call hnone rfl (fun hauto => absurd hauto (by simp))
  · intro hgave hlate
    refine ((hharvest.elapse call.lag).elapse call.took).spawn call hnone hgave fun _ => ?_
    show RESPAWN_BACKOFF_S ≤ w.harvest_exit.now + call.lag + call.took -
      w.harvest_exit.manager.spawned_at
    rw [hnow, hspawned]
    linarith

/-- Every step keeps the books: polls, spawns, deaths, and commands of the operator. -/
theorem World.books_step (w : World) (e : Event) (hvalid : w.Valid e) (h : w.Books) :
    (w.step e).Books := by
  cases e with
  | tick d wall => exact ⟨h.idle, h.held, h.count, h.verdict, h.last, h.paced⟩
  | write run_id rig heartbeat_ts state =>
    exact ⟨h.idle, h.held, h.count, h.verdict, h.last, h.paced⟩
  | replace file => exact ⟨h.idle, h.held, h.count, h.verdict, h.last, h.paced⟩
  | die code =>
    obtain ⟨⟨pid, hpid⟩, _⟩ := World.alive_iff.1 hvalid
    obtain ⟨hgave, life, rest, hera, hnoticed, hspawned, _, hrest⟩ := h.held pid hpid
    have hbury : (w.step (.die code)).era = { life with died_at := some w.now } :: rest := by
      show World.bury w.now w.era = _
      rw [hera]
      rfl
    refine ⟨?_, ?_, ?_, h.verdict, h.last, h.paced⟩
    · intro hnone
      have hnone' : w.manager.proc = none := hnone
      rw [hpid] at hnone'
      exact absurd hnone' (by simp)
    · intro _ _
      exact ⟨hgave, _, rest, hbury, hnoticed, hspawned, fun hexited => absurd hexited
        (by simp [World.step]), hrest⟩
    · rw [hbury]
      show w.manager.early_deaths = _
      rw [h.count, hera, streak, streak, hnoticed]
  | ensure call => exact h.ensure hvalid.2
  | shutdown => exact World.books_rearm rfl h.last h.paced

/-! ## The brake -/

/-- A live process is the newest, so the last deaths are no crash loop of three. -/
theorem World.Books.not_crash_loop {w : World} (h : w.Books) (halive : w.alive = true) :
    ¬ w.CrashLoop := by
  obtain ⟨⟨pid, hpid⟩, hexited⟩ := World.alive_iff.1 halive
  obtain ⟨_, life, rest, hera, _, _, hlives, _⟩ := h.held pid hpid
  rintro ⟨_, hearly⟩
  rw [hera] at hearly
  obtain ⟨t, ht, _⟩ := hearly life List.mem_cons_self
  rw [hlives hexited] at ht
  exact absurd ht (by simp)

/-- The brake holds exactly when the deaths of the loop were noticed in time. -/
theorem World.Books.braked_iff {w : World} (h : w.Books) (call : Call) :
    w.Braked call ↔ w.Timely call := by
  unfold World.Braked World.Timely
  refine forall_congr' fun htarget => forall_congr' fun hloop => ?_
  have hdead : ¬ w.alive = true := fun halive => h.not_crash_loop halive hloop
  have hharvest := h.harvest
  obtain ⟨hnone, -, -, hlength⟩ := w.harvest_fields
  have hverdict : w.harvest_exit.manager.gave_up = true ↔
      ∀ life ∈ w.harvest_exit.era.take (MAX_EARLY_DEATHS - 1), life.NoticedEarly := by
    rw [hharvest.verdict, hharvest.count, le_streak_iff (by decide) (hharvest.idle hnone), hlength]
    exact and_iff_right hloop.1
  unfold World.ensure
  rw [if_neg (fun hand => hdead hand.1), if_neg hdead, if_neg (not_not.2 htarget)]
  by_cases hgave : w.harvest_exit.manager.gave_up = true
  · rw [if_pos hgave]
    exact ⟨fun _ _ _ => hverdict.1 hgave, fun _ => rfl⟩
  · rw [if_neg hgave]
    by_cases hsoon : w.now + call.lag - w.manager.spawned_at < RESPAWN_BACKOFF_S
    · rw [if_pos hsoon]
      exact ⟨fun _ hlate => absurd hsoon (not_lt.2 hlate), fun _ => rfl⟩
    · rw [if_neg hsoon]
      constructor
      · intro hspawned _ hpopen
        exact absurd hspawned hpopen
      · intro htimely
        by_contra hpopen
        exact hgave (hverdict.2 (htimely (not_lt.1 hsoon) hpopen))

/-- In every run, the brake holds at every call exactly when every call that could spawn after a
crash loop finds its last deaths noticed in time; and automatic spawns keep their distance. -/
theorem crash_loop_braked_iff {w : World} (hinitial : w.Initial) {events : List Event}
    (hvalid : w.Valid_run events) :
    (w.Each_call events World.Braked ↔ w.Each_call events World.Timely) ∧
      (w.run events).spawns.IsChain Spawn.Paced := by
  refine ⟨?_, (Runs.run_induct World.books_step events w hinitial.books hvalid).paced⟩
  exact Runs.each_iff World.books_step (fun _ call _ h => h.braked_iff call) hinitial.books hvalid

/-! ## A loop that is polled rarely -/

def boot (pid : ℕ) : Call := ⟨some "bimanual", false, true, 0, 0, some pid⟩

/-- The daemon dies as soon as it is spawned, and the next call comes after a while. -/
def crash (gap : ℚ) (pid : ℕ) : List Event := [.ensure (boot pid), .die 3, .tick gap gap]

def crashes (gap : ℚ) : List Event := crash gap 1 ++ crash gap 2 ++ crash gap 3

theorem valid_crashes : new_world.Valid_run (crashes 40 ++ [Event.ensure (boot 4)]) := by
  have hzero : (0 : ℚ) ≤ 0 ∧ (0 : ℚ) ≤ 0 := ⟨le_refl 0, le_refl 0⟩
  have htick : (0 : ℚ) ≤ 40 := by norm_num
  have hfirst : (new_world.step (.ensure (boot 1))).alive = true := by decide +kernel
  have hsecond : ((new_world.run (crash 40 1)).step (.ensure (boot 2))).alive = true := by
    decide +kernel
  have hthird : ((new_world.run (crash 40 1 ++ crash 40 2)).step (.ensure (boot 3))).alive =
      true := by
    decide +kernel
  exact ⟨hzero, hfirst, htick, hzero, hsecond, htick, hzero, hthird, htick, hzero, trivial⟩

/-- Three daemons that died at once; the deaths of the first two were noticed after 40 seconds. -/
theorem era_crashes : (new_world.run (crashes 40)).era =
    [⟨80, some 80, none⟩, ⟨40, some 40, some 80⟩, ⟨0, some 0, some 40⟩] := by
  decide +kernel

/-- Three deaths at boot, forty seconds apart, are a crash loop. -/
theorem crash_loop_crashes : (new_world.run (crashes 40)).CrashLoop := by
  unfold World.CrashLoop
  rw [era_crashes]
  refine ⟨by decide, ?_⟩
  intro life hlife
  simp only [MAX_EARLY_DEATHS, List.take_succ_cons, List.take_zero, List.mem_cons,
    List.not_mem_nil, or_false] at hlife
  rcases hlife with rfl | rfl | rfl
  · exact ⟨80, rfl, by norm_num [EARLY_DEATH_S]⟩
  · exact ⟨40, rfl, by norm_num [EARLY_DEATH_S]⟩
  · exact ⟨0, rfl, by norm_num [EARLY_DEATH_S]⟩

/-- The general equivalence at a daemon that dies at boot again and again and is polled every forty
seconds. -/
theorem braked_crashes_iff :
    (new_world.Each_call (crashes 40 ++ [Event.ensure (boot 4)]) World.Braked ↔
      new_world.Each_call (crashes 40 ++ [Event.ensure (boot 4)]) World.Timely) ∧
    (new_world.run (crashes 40 ++ [Event.ensure (boot 4)])).spawns.IsChain Spawn.Paced :=
  crash_loop_braked_iff initial_new_world valid_crashes

/-- Polled every forty seconds, a daemon that dies at boot is spawned for the fourth time. -/
theorem rare_polls_never_brake : ¬ ∀ (w : World) (events : List Event), w.Initial →
    w.Valid_run events → w.Each_call events World.Braked := by
  intro h
  have hbraked := h new_world _ initial_new_world valid_crashes (crashes 40) (boot 4) [] rfl
  have hnone := hbraked (by decide +kernel) crash_loop_crashes
  have hspawned : ((new_world.run (crashes 40)).ensure (boot 4)).2.spawned = some 4 := by
    decide +kernel
  exact absurd (hspawned.symm.trans hnone) (by simp)

end DualFlexivControl.Dashboard
