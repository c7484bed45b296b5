/-
Where the policy is heading, from the chunk it returned to the path a viewer draws.

`_announce_horizon` estimates for every arm where a chunk leads, and two hooks write it to the arm's
horizon stream: first the end of the path under a stamp of its own, then the path, all rows under
one stamp. A viewer reads the whole ring, while the writer goes on, and keeps the rows with the
newest stamp.

What it keeps is one path as it was estimated, up to the row that was written last, or the end of
one; never parts of two ([`horizon_reads_one_path`]). Between two announcements it is the whole
path. A path may miss its beginning only if the ring was lapped while it was read.
-/
import Mathlib
import DualFlexivControl.Control.Schema
import DualFlexivControl.Lib.StampGroups
import DualFlexivControl.Streams.Last

set_option autoImplicit false

namespace DualFlexivControl.Policy.Horizon

open Interleave Relation DualFlexivControl.Ring DualFlexivControl.Control StampGroups
  Results

/-! ## The estimate -/

/-- A joint configuration or a TCP position. -/
inductive HorizonKind
  | q
  | eef
  deriving DecidableEq, Repr

/-- `_HORIZON_KIND` -/
def horizon_kind : Kind → Option HorizonKind
  | .qpos | .qvel => some .q
  | .end_effector | .eef_vel => some .eef
  | .force | .other _ => none

/-- `_HORIZON_BASE` -/
def HORIZON_BASE : Kind → Option String
  | .qvel => some "q"
  | .eef_vel => some "eef"
  | _ => none

/-- The `ValueError`s: an empty chunk, rows that do not fit the baseline, and in the hooks a path
that does not fit the stream. -/
inductive HorizonError
  | empty_chunk
  | broadcast
  | dim
  | capacity
  deriving DecidableEq, Repr

section Estimate

variable {F : Type} [Add F] [Mul F]

/-- `base[None, :] + rows`, one row. -/
def broadcast_add (base row : List F) : Except HorizonError (List F) :=
  match base, row with
  | [x], row => .ok (row.map (x + ·))
  | base, [y] => .ok (base.map (· + y))
  | base, row =>
    if base.length = row.length then .ok (List.zipWith (· + ·) base row) else .error .broadcast

/-- The running sums after one. -/
def cumsum_from (sum : List F) : List (List F) → List (List F)
  | [] => []
  | row :: rest =>
    List.zipWith (· + ·) sum row :: cumsum_from (List.zipWith (· + ·) sum row) rest

/-- `np.cumsum(chunk, axis=0)` -/
def cumsum : List (List F) → List (List F)
  | [] => []
  | row :: rest => row :: cumsum_from row rest

/-- Integrate velocities from a baseline. -/
def integrate (base : List F) (chunk : List (List F)) (dt : F) :
    Except HorizonError (List (List F)) :=
  collect (fun sum => broadcast_add base (sum.map (· * dt))) (cumsum chunk)

def estimate_chunk_trajectory (kind : Kind) (chunk : List (List F)) (dt : F)
    (measured : String → Option (List F)) :
    Except HorizonError (Option (HorizonKind × List (List F))) :=
  match horizon_kind kind with
  | none => .ok none
  | some _ =>
    if chunk = [] then .error .empty_chunk
    else match kind with
      | .qpos => .ok (some (.q, chunk))
      | .qvel =>
        match measured "q" with
        | none => .ok none
        | some q => (integrate q chunk dt).map fun path => some (.q, path)
      | .end_effector => .ok (some (.eef, chunk.map (List.take 3)))
      | _ =>
        match measured "eef" with
        | none => .ok none
        | some pose =>
          (integrate (pose.take 3) (chunk.map (List.take 3)) dt).map fun path => some (.eef, path)

end Estimate

/-! ## The hooks -/

/-- What an inference hands to `_announce_horizon`: every side's part of the chunk, and the newest
samples. -/
structure Announcement (F : Type) where
  chunk : String → List (List F)
  snapshot : String → Option (List F)

/-- The arms whose horizon is shown, the streams they are written to with their kinds, and the
seconds per step. -/
structure Publisher (F : Type) where
  arms : List (String × Kind)
  writers : String → Option (HorizonKind × RingSpec)
  dt : F

/-- Rows written to a side's stream under one stamp. -/
abbrev Post (F : Type) := String × Group (List F) ℤ

section Hooks

variable {F : Type}

/-- `publish_horizon`: each end under a stamp of its own, with `n` reads of the clock before. What
was written, the reads after, and whether nothing was raised. -/
def publish_horizon (writers : String → Option (HorizonKind × RingSpec)) (tick : ℕ → ℤ) :
    ℕ → List (String × HorizonKind × List F) → List (Post F) × ℕ × Bool
  | n, [] => ([], n, true)
  | n, (side, kind, vec) :: rest =>
    match writers side with
    | none => publish_horizon writers tick n rest
    | some (written, ring) =>
      if written ≠ kind then publish_horizon writers tick n rest
      else if vec.length ≠ ring.dim then ([], n + 1, false)
      else
        let (posts, n', ok) := publish_horizon writers tick (n + 1) rest
        ((side, ⟨[vec], tick n⟩) :: posts, n', ok)

/-- `publish_trajectory`: each joint path under one stamp. -/
def publish_trajectory (writers : String → Option (HorizonKind × RingSpec)) (tick : ℕ → ℤ) :
    ℕ → List (String × HorizonKind × List (List F)) → List (Post F) × ℕ × Bool
  | n, [] => ([], n, true)
  | n, (side, kind, path) :: rest =>
    match writers side with
    | none => publish_trajectory writers tick n rest
    | some (written, ring) =>
      if written ≠ kind ∨ kind ≠ .q then publish_trajectory writers tick n rest
      else if ∃ row ∈ path, row.length ≠ ring.dim then ([], n, false)
      else if ring.capacity < path.length then ([], n, false)
      else
        let (posts, n', ok) := publish_trajectory writers tick (n + 1) rest
        ((side, ⟨path, tick n⟩) :: posts, n', ok)

variable [Add F] [Mul F]

/-- The estimate of one side: what of the snapshot its kind needs is measured. -/
def Publisher.estimate (pub : Publisher F) (a : Announcement F) (arm : String × Kind) :
    Except HorizonError (Option (HorizonKind × List (List F))) :=
  estimate_chunk_trajectory arm.2 (a.chunk arm.1) pub.dt fun signal =>
    if HORIZON_BASE arm.2 = some signal then a.snapshot (arm.1 ++ "/" ++ signal) else none

/-- The estimates of all sides that have one. -/
def Publisher.trajectories (pub : Publisher F) (a : Announcement F) :
    Except HorizonError (List (String × HorizonKind × List (List F))) := do
  let estimates ← collect (fun arm => (pub.estimate a arm).map fun estimate =>
    estimate.map fun (kind, path) => (arm.1, kind, path)) pub.arms
  pure (estimates.filterMap id)

/-- `_announce_horizon`: whatever is raised ends it and nothing else. -/
def Publisher.announce (pub : Publisher F) (tick : ℕ → ℤ) (n : ℕ) (a : Announcement F) :
    List (Post F) × ℕ :=
  match pub.trajectories a with
  | .error _ => ([], n)
  | .ok trajectories =>
    let targets := trajectories.filterMap fun (side, kind, path) =>
      path.getLast?.map fun vec => (side, kind, vec)
    match publish_horizon pub.writers tick n targets with
    | (posts, n', false) => (posts, n')
    | (posts, n', true) =>
      let (posts', n'', _) := publish_trajectory pub.writers tick n' trajectories
      (posts ++ posts', n'')

/-- The announcements of a rollout. -/
def Publisher.rollout (pub : Publisher F) (tick : ℕ → ℤ) : ℕ → List (Announcement F) →
    List (Post F)
  | _, [] => []
  | n, a :: rest => (pub.announce tick n a).1 ++ pub.rollout tick (pub.announce tick n a).2 rest

/-- What of it goes to one side's stream. -/
def written (side : String) (posts : List (Post F)) : List (Group (List F) ℤ) :=
  (posts.filter fun post => post.1 = side).map Prod.snd

end Hooks

/-- `_latest_timestamp_group`, and the rows `read_live_horizon_q_trajectory` takes. -/
def latest_timestamp_group {F : Type} (samples : Samples F) : List (List F) :=
  newest (samples.data.zip samples.t_ns)

/-! ## What an estimate is -/

section Paths

variable {F : Type} [Add F]

/-- The sum of some rows, the first one first. -/
def sum_rows : List (List F) → List F
  | [] => []
  | row :: rest => rest.foldl (List.zipWith (· + ·)) row

theorem length_cumsum_from (chunk : List (List F)) :
    ∀ sum : List F, (cumsum_from sum chunk).length = chunk.length := by
  induction chunk with
  | nil => exact fun _ => rfl
  | cons row rest ih =>
    intro sum
    rw [cumsum_from, List.length_cons, ih, List.length_cons]

theorem getElem?_cumsum_from (chunk : List (List F)) : ∀ (sum : List F) (k : ℕ),
    (cumsum_from sum chunk)[k]? =
      if k < chunk.length then some ((chunk.take (k + 1)).foldl (List.zipWith (· + ·)) sum)
      else none := by
  induction chunk with
  | nil =>
    intro sum k
    simp [cumsum_from]
  | cons row rest ih =>
    intro sum k
    cases k with
    | zero => simp [cumsum_from]
    | succ k =>
      rw [cumsum_from, List.getElem?_cons_succ, ih, List.length_cons]
      simp only [Nat.add_lt_add_iff_right, List.take_succ_cons, List.foldl_cons]

/-- Row `k` of the running sums is the sum of the first `k + 1` rows. -/
theorem getElem?_cumsum (chunk : List (List F)) (k : ℕ) :
    (cumsum chunk)[k]? =
      if k < chunk.length then some (sum_rows (chunk.take (k + 1))) else none := by
  cases chunk with
  | nil => simp [cumsum]
  | cons row rest =>
    cases k with
    | zero => simp [cumsum, sum_rows]
    | succ k =>
      rw [cumsum, List.getElem?_cons_succ, getElem?_cumsum_from, List.length_cons]
      simp only [Nat.add_lt_add_iff_right, List.take_succ_cons, sum_rows]

/-- Every row of an integrated path is the baseline and the steps up to it. -/
theorem integrate_rows [Mul F] {base : List F} {chunk path : List (List F)} {dt : F}
    (h : integrate base chunk dt = .ok path) : path.length = chunk.length ∧
      ∀ k row, path[k]? = some row →
        broadcast_add base ((sum_rows (chunk.take (k + 1))).map (· * dt)) = .ok row := by
  have hrows := collect_ok.1 h
  have hlength : (cumsum chunk).length = chunk.length := by
    cases chunk with
    | nil => rfl
    | cons row rest => rw [cumsum, List.length_cons, length_cumsum_from, List.length_cons]
  refine ⟨hrows.length_eq.symm.trans hlength, fun k row hrow => ?_⟩
  obtain ⟨sum, hsum, hadd⟩ := entry_of_forall₂ hrows hrow
  rw [getElem?_cumsum] at hsum
  split at hsum
  · obtain rfl := Option.some.inj hsum
    exact hadd
  · exact nomatch hsum

/-- An estimate has a row for every step: the chunk's own, or the baseline and the steps up to
it. -/
theorem estimate_follows_chunk [Mul F] {kind : Kind} {chunk path : List (List F)} {dt : F}
    {measured : String → Option (List F)} {hk : HorizonKind}
    (h : estimate_chunk_trajectory kind chunk dt measured = .ok (some (hk, path))) :
    chunk ≠ [] ∧ path.length = chunk.length ∧ horizon_kind kind = some hk ∧
      (kind = .qpos → path = chunk) ∧
      (kind = .qvel → ∃ q, measured "q" = some q ∧ ∀ k row, path[k]? = some row →
        broadcast_add q ((sum_rows (chunk.take (k + 1))).map (· * dt)) = .ok row) := by
  have hmap : ∀ {e : Except HorizonError (List (List F))} {kind' : HorizonKind},
      e.map (fun path => some (kind', path)) = .ok (some (hk, path)) →
        kind' = hk ∧ e = .ok path := by
    intro e kind' heq
    cases e with
    | error e => exact nomatch heq
    | ok path' =>
      obtain ⟨hkind, hpath⟩ := Prod.mk.inj (Option.some.inj (Except.ok.inj heq))
      exact ⟨hkind, congrArg Except.ok hpath⟩
  unfold estimate_chunk_trajectory at h
  cases kind with
  | force => exact nomatch Except.ok.inj h
  | other name => exact nomatch Except.ok.inj h
  -- absolute joint targets are the path themselves
  | qpos =>
    dsimp only [horizon_kind] at h ⊢
    split at h
    · exact nomatch h
    · rename_i hne
      obtain ⟨rfl, rfl⟩ := Prod.mk.inj (Option.some.inj (Except.ok.inj h))
      exact ⟨hne, rfl, rfl, fun _ => rfl, nofun⟩
  -- joint velocities are summed up from the measured joints
  | qvel =>
    dsimp only [horizon_kind] at h ⊢
    split at h
    · exact nomatch h
    · rename_i hne
      split at h
      · exact nomatch Except.ok.inj h
      · rename_i q hq
        obtain ⟨rfl, hpath⟩ := hmap h
        obtain ⟨hlength, hrows⟩ := integrate_rows hpath
        exact ⟨hne, hlength, rfl, nofun, fun _ => ⟨q, hq, hrows⟩⟩
  -- the cartesian kinds give positions, of which only the number is said here
  | end_effector =>
    dsimp only [horizon_kind] at h ⊢
    split at h
    · exact nomatch h
    · rename_i hne
      obtain ⟨rfl, rfl⟩ := Prod.mk.inj (Option.some.inj (Except.ok.inj h))
      exact ⟨hne, List.length_map _, rfl, nofun, nofun⟩
  | eef_vel =>
    dsimp only [horizon_kind] at h ⊢
    split at h
    · exact nomatch h
    · rename_i hne
      split at h
      · exact nomatch Except.ok.inj h
      · rename_i pose hpose
        obtain ⟨rfl, hpath⟩ := hmap h
        obtain ⟨hlength, -⟩ := integrate_rows hpath
        exact ⟨hne, hlength.trans (List.length_map _), rfl, nofun, nofun⟩

end Paths

/-! ## What is written -/

section Posts

variable {F : Type} {writers : String → Option (HorizonKind × RingSpec)} {tick : ℕ → ℤ}

/-- The stamps of some posts are successive reads of the clock, of those from `n` to `n'`. -/
structure Stamped (tick : ℕ → ℤ) (n n' : ℕ) (posts : List (Post F)) : Prop where
  le : n ≤ n'
  read : ∀ post ∈ posts, ∃ i, n ≤ i ∧ i < n' ∧ post.2.stamp = tick i
  order : posts.Pairwise fun post post' => post.2.stamp < post'.2.stamp

theorem Stamped.nil {n n' : ℕ} (h : n ≤ n') : Stamped tick n n' ([] : List (Post F)) :=
  ⟨h, fun _ hpost => absurd hpost List.not_mem_nil, .nil⟩

theorem Stamped.append (htick : StrictMono tick) {n n' n'' : ℕ} {posts posts' : List (Post F)}
    (h : Stamped tick n n' posts) (h' : Stamped tick n' n'' posts') :
    Stamped tick n n'' (posts ++ posts') := by
  refine ⟨h.le.trans h'.le, ?_, List.pairwise_append.2 ⟨h.order, h'.order, ?_⟩⟩
  · intro post hpost
    rcases List.mem_append.1 hpost with hpost | hpost
    · obtain ⟨i, hle, hlt, heq⟩ := h.read post hpost
      exact ⟨i, hle, hlt.trans_le h'.le, heq⟩
    · obtain ⟨i, hle, hlt, heq⟩ := h'.read post hpost
      exact ⟨i, h.le.trans hle, hlt, heq⟩
  · intro post hpost post' hpost'
    obtain ⟨i, -, hlt, heq⟩ := h.read post hpost
    obtain ⟨i', hle, -, heq'⟩ := h'.read post' hpost'
    rw [heq, heq']
    exact htick (hlt.trans_le hle)

/-- One post, under the next read. -/
theorem Stamped.cons (htick : StrictMono tick) {n n' : ℕ} {posts : List (Post F)} (side : String)
    (rows : List (List F)) (h : Stamped tick (n + 1) n' posts) :
    Stamped tick n n' ((side, ⟨rows, tick n⟩) :: posts) := by
  have hone : Stamped tick n (n + 1) [((side, ⟨rows, tick n⟩) : Post F)] := by
    refine ⟨Nat.le_succ n, fun post hpost => ?_, List.pairwise_singleton _ _⟩
    obtain rfl := List.mem_singleton.1 hpost
    exact ⟨n, le_refl n, Nat.lt_succ_self n, rfl⟩
  exact hone.append htick h

theorem stamped_publish_horizon (htick : StrictMono tick)
    (targets : List (String × HorizonKind × List F)) : ∀ n,
      Stamped tick n (publish_horizon writers tick n targets).2.1
        (publish_horizon writers tick n targets).1 := by
  induction targets with
  | nil => exact fun n => .nil (le_refl n)
  | cons target rest ih =>
    intro n
    obtain ⟨side, kind, vec⟩ := target
    unfold publish_horizon
    split
    · exact ih n
    · split
      · exact ih n
      · split
        · exact .nil (Nat.le_succ n)
        · exact (ih (n + 1)).cons htick side [vec]

theorem stamped_publish_trajectory (htick : StrictMono tick)
    (paths : List (String × HorizonKind × List (List F))) : ∀ n,
      Stamped tick n (publish_trajectory writers tick n paths).2.1
        (publish_trajectory writers tick n paths).1 := by
  induction paths with
  | nil => exact fun n => .nil (le_refl n)
  | cons path rest ih =>
    intro n
    obtain ⟨side, kind, path⟩ := path
    unfold publish_trajectory
    split
    · exact ih n
    · split
      · exact ih n
      · split
        · exact .nil (le_refl n)
        · split
          · exact .nil (le_refl n)
          · exact (ih (n + 1)).cons htick side path

/-- Every end that is written is one of those handed over. -/
theorem origin_publish_horizon (targets : List (String × HorizonKind × List F)) : ∀ n,
    ∀ post ∈ (publish_horizon writers tick n targets).1, ∃ kind vec ring,
      (post.1, kind, vec) ∈ targets ∧ writers post.1 = some (kind, ring) ∧ post.2.rows = [vec] := by
  induction targets with
  | nil => exact fun n post hpost => absurd hpost List.not_mem_nil
  | cons target rest ih =>
    intro n post hpost
    obtain ⟨side, kind, vec⟩ := target
    have hlater : ∀ n', post ∈ (publish_horizon writers tick n' rest).1 → ∃ kind' vec' ring,
        (post.1, kind', vec') ∈ (side, kind, vec) :: rest ∧
          writers post.1 = some (kind', ring) ∧ post.2.rows = [vec'] := by
      intro n' hmem
      obtain ⟨kind', vec', ring, hmem, hrest⟩ := ih n' post hmem
      exact ⟨kind', vec', ring, List.mem_cons_of_mem _ hmem, hrest⟩
    unfold publish_horizon at hpost
    split at hpost
    · exact hlater n hpost
    · rename_i written ring hwriter
      split at hpost
      · exact hlater n hpost
      · rename_i hkind
        split at hpost
        · exact absurd hpost List.not_mem_nil
        · rcases List.mem_cons.1 hpost with rfl | hpost
          · exact ⟨kind, vec, ring, List.mem_cons_self, not_not.1 hkind ▸ hwriter, rfl⟩
          · exact hlater (n + 1) hpost

/-- Every path that is written is one of those handed over, and fits the stream. -/
theorem origin_publish_trajectory (paths : List (String × HorizonKind × List (List F))) : ∀ n,
    ∀ post ∈ (publish_trajectory writers tick n paths).1, ∃ ring,
      (post.1, .q, post.2.rows) ∈ paths ∧ writers post.1 = some (.q, ring) ∧
        post.2.rows.length ≤ ring.capacity := by
  induction paths with
  | nil => exact fun n post hpost => absurd hpost List.not_mem_nil
  | cons path rest ih =>
    intro n post hpost
    obtain ⟨side, kind, path⟩ := path
    have hlater : ∀ n', post ∈ (publish_trajectory writers tick n' rest).1 → ∃ ring,
        (post.1, .q, post.2.rows) ∈ (side, kind, path) :: rest ∧
          writers post.1 = some (.q, ring) ∧ post.2.rows.length ≤ ring.capacity := by
      intro n' hmem
      obtain ⟨ring, hmem, hrest⟩ := ih n' post hmem
      exact ⟨ring, List.mem_cons_of_mem _ hmem, hrest⟩
    unfold publish_trajectory at hpost
    split at hpost
    · exact hlater n hpost
    · rename_i written ring hwriter
      split at hpost
      · exact hlater n hpost
      · rename_i hkind
        obtain ⟨hwritten, hq⟩ := not_or.1 hkind
        obtain rfl := not_not.1 hq
        obtain rfl := not_not.1 hwritten
        split at hpost
        · exact absurd hpost List.not_mem_nil
        · split at hpost
          · exact absurd hpost List.not_mem_nil
          · rename_i hfits
            rcases List.mem_cons.1 hpost with rfl | hpost
            · exact ⟨ring, List.mem_cons_self, hwriter, not_lt.1 hfits⟩
            · exact hlater (n + 1) hpost

variable [Add F] [Mul F] {pub : Publisher F}

theorem stamped_announce (htick : StrictMono tick) (n : ℕ) (a : Announcement F) :
    Stamped tick n (pub.announce tick n a).2 (pub.announce tick n a).1 := by
  unfold Publisher.announce
  split
  · exact .nil (le_refl n)
  · rename_i trajectories htrajectories
    dsimp only
    have htargets := @stamped_publish_horizon F pub.writers tick htick
      (trajectories.filterMap fun x => x.2.2.getLast?.map fun vec => (x.1, x.2.1, vec)) n
    split
    · rename_i posts n' hposts
      rw [hposts] at htargets
      exact htargets
    · rename_i posts n' hposts
      rw [hposts] at htargets
      exact htargets.append htick (stamped_publish_trajectory htick trajectories n')

theorem stamped_rollout (htick : StrictMono tick) (announcements : List (Announcement F)) :
    ∀ n, ∃ n', Stamped tick n n' (pub.rollout tick n announcements) := by
  induction announcements with
  | nil => exact fun n => ⟨n, .nil (le_refl n)⟩
  | cons a rest ih =>
    intro n
    obtain ⟨n', hrest⟩ := ih (pub.announce tick n a).2
    exact ⟨n', (stamped_announce htick n a).append htick hrest⟩

/-- Where the rows of a post come from: an arm's estimate for a chunk, its end or all of it. -/
def FromEstimate (pub : Publisher F) (announcements : List (Announcement F)) (post : Post F) :
    Prop :=
  ∃ a ∈ announcements, ∃ kind, (post.1, kind) ∈ pub.arms ∧ ∃ hk path ring,
    pub.estimate a (post.1, kind) = .ok (some (hk, path)) ∧
      pub.writers post.1 = some (hk, ring) ∧
      ((∃ vec, path.getLast? = some vec ∧ post.2.rows = [vec]) ∨
        (hk = .q ∧ post.2.rows = path ∧ path.length ≤ ring.capacity))

/-- What is written is not empty. -/
theorem FromEstimate.rows_ne_nil {announcements : List (Announcement F)} {post : Post F}
    (h : FromEstimate pub announcements post) : post.2.rows ≠ [] := by
  obtain ⟨a, -, kind, -, hk, path, ring, hestimate, -, hrows⟩ := h
  rcases hrows with ⟨vec, -, hrows⟩ | ⟨-, hrows, -⟩
  · rw [hrows]
    exact List.cons_ne_nil _ _
  · obtain ⟨hne, hlength, -⟩ := estimate_follows_chunk hestimate
    rw [hrows, ← List.length_pos_iff, hlength, List.length_pos_iff]
    exact hne

theorem mem_trajectories {a : Announcement F}
    {trajectories : List (String × HorizonKind × List (List F))}
    (h : pub.trajectories a = .ok trajectories) {side : String} {hk : HorizonKind}
    {path : List (List F)} (hmem : (side, hk, path) ∈ trajectories) :
    ∃ kind, (side, kind) ∈ pub.arms ∧ pub.estimate a (side, kind) = .ok (some (hk, path)) := by
  obtain ⟨estimates, hestimates, hpure⟩ := bind_ok.1 h
  rw [← pure_ok.1 hpure] at hmem
  obtain ⟨estimate, hestimate, hid⟩ := List.mem_filterMap.1 hmem
  obtain ⟨arm, harm, hmap⟩ := element_of_collect hestimates estimate hestimate
  cases hresult : pub.estimate a arm with
  | error e =>
    rw [hresult] at hmap
    exact nomatch hmap
  | ok found =>
    rw [hresult] at hmap
    have hfound := Except.ok.inj hmap
    rw [show estimate = some (side, hk, path) from hid] at hfound
    cases found with
    | none => exact nomatch hfound
    | some found =>
      have heq := Option.some.inj hfound
      obtain ⟨hside, hrest⟩ := Prod.mk.inj heq
      exact ⟨arm.2, hside ▸ harm, by rw [← hside, ← hrest]; exact hresult⟩

theorem origin_announce {n : ℕ} {a : Announcement F} {post : Post F}
    (hpost : post ∈ (pub.announce tick n a).1) : FromEstimate pub [a] post := by
  unfold Publisher.announce at hpost
  split at hpost
  · exact absurd hpost List.not_mem_nil
  · rename_i trajectories htrajectories
    dsimp only at hpost
    have hend : post ∈ (publish_horizon pub.writers tick n
        (trajectories.filterMap fun x => x.2.2.getLast?.map fun vec => (x.1, x.2.1, vec))).1 →
        FromEstimate pub [a] post := by
      intro hmem
      obtain ⟨hk, vec, ring, htarget, hwriter, hrows⟩ := origin_publish_horizon _ n post hmem
      obtain ⟨⟨side, hk', path⟩, hpath, hvec⟩ := List.mem_filterMap.1 htarget
      obtain ⟨vec', hlast, heq⟩ := Option.map_eq_some_iff.1 hvec
      obtain ⟨rfl, hrest⟩ := Prod.mk.inj heq
      obtain ⟨rfl, rfl⟩ := Prod.mk.inj hrest
      obtain ⟨kind, harm, hestimate⟩ := mem_trajectories htrajectories hpath
      exact ⟨a, List.mem_singleton_self a, kind, harm, hk', path, ring, hestimate, hwriter,
        .inl ⟨vec', hlast, hrows⟩⟩
    split at hpost
    · rename_i posts n' hposts
      exact hend (by rw [hposts]; exact hpost)
    · rename_i posts n' hposts
      rcases List.mem_append.1 hpost with hpost | hpost
      · exact hend (by rw [hposts]; exact hpost)
      · obtain ⟨ring, hpath, hwriter, hfits⟩ := origin_publish_trajectory _ n' post hpost
        obtain ⟨kind, harm, hestimate⟩ := mem_trajectories htrajectories hpath
        exact ⟨a, List.mem_singleton_self a, kind, harm, .q, post.2.rows, ring, hestimate, hwriter,
          .inr ⟨rfl, rfl, hfits⟩⟩

theorem origin_rollout {announcements : List (Announcement F)} : ∀ {n : ℕ} {post : Post F},
    post ∈ pub.rollout tick n announcements → FromEstimate pub announcements post := by
  induction announcements with
  | nil =>
    intro n post hpost
    exact absurd hpost List.not_mem_nil
  | cons a rest ih =>
    intro n post hpost
    rcases List.mem_append.1 hpost with hpost | hpost
    · obtain ⟨a', ha', hfrom⟩ := origin_announce hpost
      obtain rfl := List.mem_singleton.1 ha'
      exact ⟨a', List.mem_cons_self, hfrom⟩
    · obtain ⟨a', ha', hfrom⟩ := ih hpost
      exact ⟨a', List.mem_cons_of_mem _ ha', hfrom⟩

end Posts

/-! ## What is read -/

section Read

variable {F : Type}

/-- The rows of a read of the whole ring are a window of what the writer does. -/
theorem zip_of_window {p' : Producer F} {s : Samples F} {lo w : ℕ} {whole : List (List F × ℤ)}
    (hlo : lo < w) (hw : w ≤ whole.length) (hlog : p'.log <+: whole)
    (hseq : s.seq = List.range' lo (w - lo)) (hrows : RowsFrom p' s) :
    s.data.zip s.t_ns = (whole.take w).drop lo := by
  have hlength : s.seq.length = w - lo := by rw [hseq, List.length_range']
  refine List.ext_getElem? fun i => ?_
  by_cases hi : i < w - lo
  · obtain ⟨sample, hsample, hdata, hstamp⟩ := hrows.row i (lo + i) (by
      rw [hseq, List.getElem?_range' hi, Nat.one_mul])
    rw [List.getElem?_drop, List.getElem?_take_of_lt (by omega),
      getElem?_of_grows hlog hsample]
    exact List.getElem?_zip_eq_some.2 ⟨hdata, hstamp⟩
  · rw [List.getElem?_eq_none, List.getElem?_eq_none]
    · rw [List.length_drop, List.length_take]
      omega
    · rw [List.length_zip, hrows.data_length, hrows.t_ns_length, hlength]
      omega

variable [Zero F] [Add F] [Mul F]

omit [Zero F] in
/-- What is written under one stamp fits the ring it is written to. -/
theorem FromEstimate.fits {pub : Publisher F} {announcements : List (Announcement F)}
    {side : String} {g : Group (List F) ℤ} (h : FromEstimate pub announcements (side, g))
    {hk : HorizonKind} {ring : RingSpec} (hring : pub.writers side = some (hk, ring)) :
    g.rows.length ≤ ring.capacity := by
  obtain ⟨_, _, _, _, hk', _, ring', _, hwriter, hrows⟩ := h
  obtain ⟨-, rfl⟩ := Prod.mk.inj (Option.some.inj (hwriter.symm.trans hring))
  rcases hrows with ⟨vec, -, hrows⟩ | ⟨-, hrows, hle⟩
  · rw [hrows, List.length_singleton]
    exact ring'.capacity_pos
  · rw [hrows]
    exact hle

/-- Whatever the rollout announces and whatever it writes during a read, the reader gets rows of
one estimate: its path, or its end, up to a row that was published when the read began or later.
It gets nothing only when nothing had been published, or when the ring was lapped in each pass of
the read. The path is there from its beginning unless the ring was lapped since. And when all that
was announced is published, what was written last is there, whole. -/
theorem horizon_reads_one_path (pub : Publisher F) {tick : ℕ → ℤ} (htick : StrictMono tick)
    (announcements : List (Announcement F)) {side : String} {hk : HorizonKind} {ring : RingSpec}
    (hring : pub.writers side = some (hk, ring)) {p p' : Producer F} {s : Samples F}
    (hp : Reachable ring p)
    (hlog : p'.log <+: flat (written side (pub.rollout tick 0 announcements)))
    (h : Exec (Ring.Step ring) view p (last ring ring.capacity) p' s) :
    (latest_timestamp_group s = [] ∧ (published p = 0 ∨
      published p + read_retries * (ring.capacity - 1) < begun ring p')) ∨
      ∃ before g after, written side (pub.rollout tick 0 announcements) = before ++ g :: after ∧
        FromEstimate pub announcements (side, g) ∧
        ∃ j, 0 < j ∧ j ≤ g.rows.length ∧ published p ≤ (flat before).length + j ∧
          latest_timestamp_group s ≠ [] ∧ latest_timestamp_group s <:+ g.rows.take j ∧
          (p'.log.length ≤ (flat before).length + ring.capacity →
            latest_timestamp_group s = g.rows.take j) ∧
          (published p = (flat (written side (pub.rollout tick 0 announcements))).length →
            after = [] ∧ latest_timestamp_group s = g.rows) := by
  have hstamps : (written side (pub.rollout tick 0 announcements)).Pairwise
      fun g g' => g.stamp < g'.stamp := by
    obtain ⟨n', hstamped⟩ := @stamped_rollout F tick _ _ pub htick announcements 0
    exact List.pairwise_map.2 (hstamped.order.sublist List.filter_sublist)
  have horigin : ∀ g ∈ written side (pub.rollout tick 0 announcements),
      FromEstimate pub announcements (side, g) := by
    intro g hg
    obtain ⟨post, hpost, rfl⟩ := List.mem_map.1 hg
    obtain ⟨hpost, hside⟩ := List.mem_filter.1 hpost
    rw [← of_decide_eq_true hside]
    exact origin_rollout hpost
  obtain ⟨hinv, hgrows⟩ := inv_reach (inv_of_reachable hp) h.reach
  rcases last_window_spec (inv_of_reachable hp) h with
    ⟨rfl, hwhy⟩ | ⟨lo, w, hlo, hpub, hpub', hseq, hrows, -, hkept⟩
  · exact .inl ⟨rfl, hwhy⟩
  · have hbounds := hinv.bounds
    have hw : w ≤ (flat (written side (pub.rollout tick 0 announcements))).length := by
      have := hlog.length_le
      omega
    obtain ⟨before, g, after, hsplit, hbefore, hgroup, hnewest⟩ := newest_window hstamps hlo hw
    have hread : latest_timestamp_group s =
        (g.rows.take (w - (flat before).length)).drop (lo - (flat before).length) := by
      rw [← hnewest]
      exact congrArg newest (zip_of_window hlo hw hlog hseq hrows)
    have hfrom : FromEstimate pub announcements (side, g) := by
      refine horigin g ?_
      rw [hsplit]
      exact List.mem_append_right _ List.mem_cons_self
    have hunlapped : p'.log.length ≤ (flat before).length + ring.capacity →
        latest_timestamp_group s = g.rows.take (w - (flat before).length) := by
      intro hle
      have hkeep := hkept (flat before).length hbefore (by omega)
      rw [hread, Nat.sub_eq_zero_of_le hkeep, List.drop_zero]
    refine .inr ⟨before, g, after, hsplit, hfrom, w - (flat before).length, by omega, by omega,
      by omega, ?_, ?_, hunlapped, ?_⟩
    · rw [hread, ← List.length_pos_iff, List.length_drop, List.length_take]
      omega
    · rw [hread]
      exact List.drop_suffix _ _
    · intro hall
      have hlength : (flat (written side (pub.rollout tick 0 announcements))).length =
          (flat before).length + g.rows.length + (flat after).length := by
        rw [hsplit, flat_append, flat_cons, List.length_append, List.length_append,
          List.length_map, Nat.add_assoc]
      have hafter : after = [] := by
        cases after with
        | nil => rfl
        | cons g' rest =>
          have hg' := horigin g' (by rw [hsplit]; exact List.mem_append_right _ (by simp))
          have hpos : 0 < g'.rows.length := List.length_pos_iff.2 hg'.rows_ne_nil
          rw [flat_cons, List.length_append, List.length_map] at hlength
          omega
      -- nothing is left to write, so nothing of the last group can have been overwritten
      have hfits := hfrom.fits hring
      have hend : (flat after).length = 0 := by rw [hafter]; rfl
      have hlogged := hlog.length_le
      refine ⟨hafter, ?_⟩
      rw [hunlapped (by omega), List.take_of_length_le (by omega)]

end Read

/-- Four slots of one joint. -/
def four_slots : RingSpec := ⟨4, 1, by decide⟩

/-- An arm that a chunk of joint velocities drives. -/
def driven_arm : Publisher ℤ :=
  ⟨[("left", .qvel)], fun side => if side = "left" then some (.q, four_slots) else none, 1⟩

/-- Two steps from a measured joint. -/
def two_steps : Announcement ℤ :=
  ⟨fun _ => [[1], [2]], fun signal => if signal = "left/q" then some [10] else none⟩

/-- The end of the path and its first row are written. -/
def half_written : Producer ℤ :=
  (((Producer.create : Producer ℤ).post four_slots [13] 0).bind
    (·.post four_slots [11] 1)).getD .create

theorem half_written_reachable : Reachable four_slots half_written := by
  obtain ⟨p, hp⟩ : ∃ p, (Producer.create : Producer ℤ).post four_slots [13] 0 = some p := ⟨_, rfl⟩
  exact (runActs_reach hp).trans (runActs_reach
    (show runActs (Producer.step four_slots) (.append [11] 1 :: List.replicate 5 .store) p =
      some half_written by obtain rfl := Option.some.inj hp; rfl))

/-- A reader that comes while the second row is written gets the first one. -/
theorem half_written_path_read : ∃ p' s, Exec (Ring.Step four_slots) view half_written
      (last four_slots four_slots.capacity) p' s ∧ latest_timestamp_group s = [[11]] ∧
    ∃ before g after, written "left" (driven_arm.rollout (fun n => n) 0 [two_steps]) =
      before ++ g :: after ∧ FromEstimate driven_arm [two_steps] ("left", g) := by
  have hrun : ((last four_slots four_slots.capacity).schedule (Producer.step four_slots) view
      [[], .append [13] 1 :: List.replicate 5 .store] half_written).map
        (fun x => (x.1.log, x.2)) =
      some ([([13], 0), ([11], 1), ([13], 1)], ⟨[[13], [11]], [0, 1], [0, 1], false⟩) := rfl
  obtain ⟨p', hp', hlog⟩ := exec_schedule_observe Producer.log hrun
  have hpaths : p'.log <+:
      flat (written "left" (driven_arm.rollout (fun n => (n : ℤ)) 0 [two_steps])) := by
    rw [hlog]
    exact ⟨[], by decide⟩
  refine ⟨p', _, hp', by decide, ?_⟩
  rcases horizon_reads_one_path driven_arm (fun a b h => Int.ofNat_lt.2 h) [two_steps] rfl
    half_written_reachable hpaths hp' with
    ⟨hnil, -⟩ | ⟨before, g, after, hsplit, hfrom, -⟩
  · exact absurd hnil (by decide)
  · exact ⟨before, g, after, hsplit, hfrom⟩

end DualFlexivControl.Policy.Horizon
