/-
Fallible functions: what a successful result says about the steps that led to it.

`Except ε` is the monad of Python functions that only read. The rules are equivalences on
`= .ok b`, one per construct; `collect` is a loop that stops at the first exception.
-/
import Mathlib.Tactic.Common
import Mathlib.Data.List.Forall2

set_option autoImplicit false

namespace Results

variable {ε α β : Type}

@[simp] theorem pure_ok {a b : α} : (pure a : Except ε α) = .ok b ↔ a = b := by
  constructor
  · intro h
    exact Except.ok.inj h
  · intro h
    rw [h]
    rfl

@[simp] theorem throw_ok {e : ε} {b : α} : (throw e : Except ε α) = .ok b ↔ False := by
  constructor
  · intro h
    exact nomatch h
  · intro h
    exact h.elim

/-- What does not succeed raises. -/
theorem exists_error_iff {x : Except ε α} : (∃ e, x = .error e) ↔ ¬ ∃ a, x = .ok a := by
  cases x with
  | error e => simp
  | ok a => simp

/-- A sequence succeeds when both parts do, the second at what the first returned. -/
theorem bind_ok {x : Except ε α} {f : α → Except ε β} {b : β} :
    x >>= f = .ok b ↔ ∃ a, x = .ok a ∧ f a = .ok b := by
  cases x with
  | error e =>
    constructor
    · intro h
      exact nomatch h
    · rintro ⟨a, ha, _⟩
      exact nomatch ha
  | ok a =>
    constructor
    · intro h
      exact ⟨a, rfl, h⟩
    · rintro ⟨a', ha, h⟩
      rw [Except.ok.inj ha]
      exact h

/-- Renaming the exceptions changes no result, so a `try` that only translates them may be skipped.
-/
theorem mapError_ok {ε' : Type} {x : Except ε α} {g : ε → ε'} {a : α} :
    x.mapError g = .ok a ↔ x = .ok a := by
  cases x with
  | error e =>
    constructor
    · intro h
      exact nomatch h
    · intro h
      exact nomatch h
  | ok b =>
    constructor
    · intro h
      exact congrArg Except.ok (Except.ok.inj h)
    · intro h
      exact congrArg Except.ok (Except.ok.inj h)

/-- A guard that raises is passed only where its condition fails, and what follows is then the whole
program. -/
theorem guard_ok {c : Prop} [Decidable c] {e : ε} {x : Except ε α} {b : α} :
    (if c then .error e else x) = .ok b ↔ ¬ c ∧ x = .ok b := by
  by_cases hc : c
  · rw [if_pos hc]
    constructor
    · intro h
      exact nomatch h
    · rintro ⟨h, _⟩
      exact absurd hc h
  · rw [if_neg hc]
    exact ⟨fun h => ⟨hc, h⟩, fun h => h.2⟩

/-- The counterpart of an entry, in lists that match entry by entry. -/
theorem entry_of_forall₂ {R : α → β → Prop} {as : List α} {bs : List β}
    (h : List.Forall₂ R as bs) :
    ∀ {k : ℕ} {b : β}, bs[k]? = some b → ∃ a, as[k]? = some a ∧ R a b := by
  induction h with
  | nil =>
    intro k b hb
    rw [List.getElem?_nil] at hb
    exact absurd hb (by simp)
  | cons hhead _ ih =>
    intro k b hb
    cases k with
    | zero =>
      rw [List.getElem?_cons_zero] at hb
      exact ⟨_, List.getElem?_cons_zero, Option.some.inj hb ▸ hhead⟩
    | succ k =>
      rw [List.getElem?_cons_succ] at hb ⊢
      exact ih hb

/-! ## Loops that stop at the first exception -/

/-- `[f(a) for a in items]` -/
def collect (f : α → Except ε β) : List α → Except ε (List β)
  | [] => .ok []
  | a :: rest =>
    match f a with
    | .error e => .error e
    | .ok b =>
      match collect f rest with
      | .error e => .error e
      | .ok bs => .ok (b :: bs)

variable {f : α → Except ε β}

theorem collect_cons {a : α} {rest : List α} {bs : List β} :
    collect f (a :: rest) = .ok bs ↔
      ∃ b bs', f a = .ok b ∧ collect f rest = .ok bs' ∧ bs = b :: bs' := by
  rw [collect]
  cases f a with
  | error e => simp
  | ok b =>
    cases collect f rest with
    | error e => simp
    | ok bs' => simp [eq_comm]

/-- The loop succeeds with `bs` when each element succeeds with its own entry. -/
theorem collect_ok {items : List α} :
    ∀ {bs : List β}, collect f items = .ok bs ↔ List.Forall₂ (fun a b => f a = .ok b) items bs := by
  induction items with
  | nil =>
    intro bs
    rw [List.forall₂_nil_left_iff]
    exact ⟨fun h => (Except.ok.inj h).symm, fun h => congrArg Except.ok h.symm⟩
  | cons a rest ih =>
    intro bs
    rw [collect_cons, List.forall₂_cons_left_iff]
    constructor
    · rintro ⟨b, bs', hb, hbs', rfl⟩
      exact ⟨b, bs', hb, ih.1 hbs', rfl⟩
    · rintro ⟨b, bs', hb, hbs', rfl⟩
      exact ⟨b, bs', hb, ih.2 hbs', rfl⟩

/-- Every element of a successful loop has an entry in its result, the one that its own call
returned. -/
theorem entry_of_collect {items : List α} :
    ∀ {bs : List β}, collect f items = .ok bs → ∀ a ∈ items, ∃ b ∈ bs, f a = .ok b := by
  induction items with
  | nil =>
    intro bs _ a ha
    exact absurd ha List.not_mem_nil
  | cons a rest ih =>
    intro bs h a' ha'
    obtain ⟨b, bs', hb, hbs', rfl⟩ := collect_cons.1 h
    rcases List.mem_cons.1 ha' with rfl | ha'
    · exact ⟨b, List.mem_cons_self, hb⟩
    · obtain ⟨b', hb', hf⟩ := ih hbs' a' ha'
      exact ⟨b', List.mem_cons_of_mem _ hb', hf⟩

/-- Every entry of the result comes from an element of the list, by a call that returned it. -/
theorem element_of_collect {items : List α} :
    ∀ {bs : List β}, collect f items = .ok bs → ∀ b ∈ bs, ∃ a ∈ items, f a = .ok b := by
  induction items with
  | nil =>
    intro bs h b hb
    rw [← Except.ok.inj h] at hb
    exact absurd hb List.not_mem_nil
  | cons a rest ih =>
    intro bs h b' hb'
    obtain ⟨b, bs', hb, hbs', rfl⟩ := collect_cons.1 h
    rcases List.mem_cons.1 hb' with rfl | hb'
    · exact ⟨a, List.mem_cons_self, hb⟩
    · obtain ⟨a', ha', hf⟩ := ih hbs' b' hb'
      exact ⟨a', List.mem_cons_of_mem _ ha', hf⟩

/-- A loop none of whose elements raises. -/
theorem exists_collect {items : List α} (h : ∀ a ∈ items, ∃ b, f a = .ok b) :
    ∃ bs, collect f items = .ok bs := by
  induction items with
  | nil => exact ⟨[], rfl⟩
  | cons a rest ih =>
    obtain ⟨b, hb⟩ := h a List.mem_cons_self
    obtain ⟨bs, hbs⟩ := ih fun a' ha' => h a' (List.mem_cons_of_mem _ ha')
    exact ⟨b :: bs, collect_cons.2 ⟨b, bs, hb, hbs, rfl⟩⟩

/-- A loop succeeds exactly where none of its elements raises. -/
theorem exists_collect_iff {items : List α} :
    (∃ bs, collect f items = .ok bs) ↔ ∀ a ∈ items, ∃ b, f a = .ok b := by
  constructor
  · rintro ⟨bs, hbs⟩ a ha
    obtain ⟨b, _, hb⟩ := entry_of_collect hbs a ha
    exact ⟨b, hb⟩
  · exact exists_collect

/-- A loop over encoded elements that decodes each of them gives the elements. -/
theorem collect_map {g : β → α} {items : List β} (h : ∀ b ∈ items, f (g b) = .ok b) :
    collect f (items.map g) = .ok items := by
  induction items with
  | nil => rfl
  | cons b rest ih =>
    rw [List.map_cons]
    apply collect_cons.2
    exact ⟨b, rest, h b List.mem_cons_self, ih fun b' hb' => h b' (List.mem_cons_of_mem _ hb'),
      rfl⟩

/-- Two loops over the same elements give results that look alike exactly when each element's
do. -/
theorem map_collect_eq_iff {γ : Type} {g : β → γ} {f' : α → Except ε β} {items : List α} :
    ∀ {bs bs' : List β}, collect f items = .ok bs → collect f' items = .ok bs' →
      (bs.map g = bs'.map g ↔
        ∀ a ∈ items, ∀ b b', f a = .ok b → f' a = .ok b' → g b = g b') := by
  induction items with
  | nil =>
    intro bs bs' h h'
    rw [← Except.ok.inj h, ← Except.ok.inj h']
    exact ⟨fun _ a ha => absurd ha List.not_mem_nil, fun _ => rfl⟩
  | cons a rest ih =>
    intro bs bs' h h'
    obtain ⟨b, tail, hb, htail, rfl⟩ := collect_cons.1 h
    obtain ⟨b', tail', hb', htail', rfl⟩ := collect_cons.1 h'
    rw [List.map_cons, List.map_cons, List.cons_eq_cons, ih htail htail', List.forall_mem_cons]
    refine and_congr_left fun _ => ⟨?_, fun hg => hg b b' hb hb'⟩
    intro hg c c' hc hc'
    rw [hb] at hc
    rw [hb'] at hc'
    rw [← Except.ok.inj hc, ← Except.ok.inj hc']
    exact hg

end Results
