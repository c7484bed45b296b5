/-
Programs with state and exceptions, and what they ensure.

`Effect ε σ` is the usual exception-over-state monad: an exception does not undo the
state changes made before it, which is what a `finally` block relies on. Programs are
written in `do` notation and reasoned about through [`Ensures`], the weakest precondition
read as a proposition about one start state. Its rules are equivalences, one per
construct, so that a program's exact condition can be computed by rewriting.
-/
import Mathlib.Order.Defs.Unbundled
import Mathlib.Tactic.Common

set_option autoImplicit false

/-- Programs over states `σ` that may raise an `ε`. -/
abbrev Effect (ε σ : Type) := ExceptT ε (StateM σ)

namespace Effect

variable {ε σ α β : Type}

/-- Run a program: its result, and the state it leaves behind either way. -/
def exec (x : Effect ε σ α) (s : σ) : Except ε α × σ := StateT.run (ExceptT.run x) s

/-- A call into the outside world whose result is given. -/
def call (r : Except ε α) : Effect ε σ α := ExceptT.mk (pure r)

/-- Change the state. -/
def update (f : σ → σ) : Effect ε σ Unit := ExceptT.mk fun s => (.ok (), f s)

/-- `try: body finally: f`, for a block that cannot raise. -/
def withFinally (body : Effect ε σ α) (f : σ → σ) : Effect ε σ α :=
  ExceptT.mk fun s => ((exec body s).1, f (exec body s).2)

/-- `try: body finally: block`, for a block that may raise too: its exception then takes the
place of the body's result. -/
def finallyDo (body : Effect ε σ α) (block : Effect ε σ Unit) : Effect ε σ α :=
  ExceptT.mk fun s =>
    match exec block (exec body s).2 with
    | (.ok _, s') => ((exec body s).1, s')
    | (.error e, s') => (.error e, s')

/-- Run a program on a part of the state, with its exceptions under other names. -/
def zoom {ε' τ : Type} (part : τ → σ) (store : σ → τ → τ) (raises : ε → ε') (x : Effect ε σ α) :
    Effect ε' τ α :=
  ExceptT.mk fun s => ((exec x (part s)).1.mapError raises, store (exec x (part s)).2 s)

/-- `Q` holds of the result and of the state left behind. -/
def Ensures (x : Effect ε σ α) (s : σ) (Q : Except ε α → σ → Prop) : Prop :=
  Q (exec x s).1 (exec x s).2

section Rules

variable {s : σ} {Q : Except ε α → σ → Prop}

/-- Returning ensures what holds of the value in the state as it is. -/
@[simp] theorem ensures_pure {a : α} : Ensures (pure a : Effect ε σ α) s Q ↔ Q (.ok a) s :=
  Iff.rfl

/-- Raising ensures what holds of the exception in the state as it is: nothing is rolled back. -/
@[simp] theorem ensures_throw {e : ε} :
    Ensures (throw e : Effect ε σ α) s Q ↔ Q (.error e) s := Iff.rfl

/-- A change of the state ensures what holds afterwards, with nothing to return. -/
@[simp] theorem ensures_update {f : σ → σ} {Q : Except ε Unit → σ → Prop} :
    Ensures (update f : Effect ε σ Unit) s Q ↔ Q (.ok ()) (f s) := Iff.rfl

/-- A call outside ensures what holds of its given result; the program's own state is not touched.
-/
theorem ensures_call {r : Except ε α} : Ensures (call r : Effect ε σ α) s Q ↔ Q r s := Iff.rfl

/-- Reading the state hands it on and leaves it. -/
@[simp] theorem ensures_get {Q : Except ε σ → σ → Prop} :
    Ensures (get : Effect ε σ σ) s Q ↔ Q (.ok s) s := Iff.rfl

/-- Sequencing: an exception skips what follows, and the state is the one that it left. -/
theorem ensures_bind {x : Effect ε σ α} {f : α → Effect ε σ β} {Q : Except ε β → σ → Prop} :
    Ensures (x >>= f) s Q ↔ Ensures x s fun r s' =>
      match r with
      | .ok a => Ensures (f a) s' Q
      | .error e => Q (.error e) s' := by
  have hexec : exec (x >>= f) s = match (exec x s).1 with
      | .ok a => exec (f a) (exec x s).2
      | .error e => (.error e, (exec x s).2) := by
    unfold exec
    rw [ExceptT.run_bind, StateT.run_bind]
    show StateT.run _ (StateT.run (ExceptT.run x) s).2 = _
    cases (StateT.run (ExceptT.run x) s).1 with
    | ok a => rfl
    | error e => rfl
  unfold Ensures
  rw [hexec]
  cases (exec x s).1 with
  | ok a => rfl
  | error e => rfl

/-- A program that starts by reading the state is the rest of it, with that state filled in. -/
theorem ensures_get_bind {f : σ → Effect ε σ β} {Q : Except ε β → σ → Prop} :
    Ensures (get >>= f) s Q ↔ Ensures (f s) s Q := Iff.rfl

/-- Sequencing, from what the first part is known to ensure: one obligation where it returns and one
where it raises. -/
theorem Ensures.bind {x : Effect ε σ α} {f : α → Effect ε σ β} {P : Except ε α → σ → Prop}
    {Q : Except ε β → σ → Prop} (hx : Ensures x s P)
    (hok : ∀ a s', P (.ok a) s' → Ensures (f a) s' Q)
    (herror : ∀ e s', P (.error e) s' → Q (.error e) s') : Ensures (x >>= f) s Q := by
  rw [ensures_bind]
  unfold Ensures at hx ⊢
  generalize exec x s = out at hx ⊢
  obtain ⟨r, s'⟩ := out
  cases r with
  | ok a => exact hok a s' hx
  | error e => exact herror e s' hx

/-- A handler starts from the state that the exception left, not from that in which the block began.
-/
theorem ensures_tryCatch {x : Effect ε σ α} {handler : ε → Effect ε σ α} :
    Ensures (tryCatch x handler) s Q ↔ Ensures x s fun r s' =>
      match r with
      | .ok a => Q (.ok a) s'
      | .error e => Ensures (handler e) s' Q := by
  have hexec : exec (tryCatch x handler) s = match (exec x s).1 with
      | .ok a => (.ok a, (exec x s).2)
      | .error e => exec (handler e) (exec x s).2 := by
    unfold exec
    rw [ExceptT.run_tryCatch, StateT.run_bind]
    show StateT.run _ (StateT.run (ExceptT.run x) s).2 = _
    cases (StateT.run (ExceptT.run x) s).1 with
    | ok a => rfl
    | error e => rfl
  unfold Ensures
  rw [hexec]
  cases (exec x s).1 with
  | ok a => rfl
  | error e => rfl

/-- What a program ensures of a part of the state. -/
theorem ensures_zoom {ε' τ : Type} {part : τ → σ} {store : σ → τ → τ} {raises : ε → ε'}
    {x : Effect ε σ α} {s : τ} {Q : Except ε' α → τ → Prop} :
    Ensures (zoom part store raises x) s Q ↔
      Ensures x (part s) fun r s' => Q (r.mapError raises) (store s' s) := Iff.rfl

/-- A program ensures what follows from what it ensures. -/
theorem Ensures.imp {x : Effect ε σ α} {P : Except ε α → σ → Prop} (h : Ensures x s P)
    (himp : ∀ r s', P r s' → Q r s') : Ensures x s Q := himp _ _ h

/-- A program on a part of the state, from what it ensures there. -/
theorem Ensures.zoom {ε' τ : Type} {part : τ → σ} {store : σ → τ → τ} {raises : ε → ε'}
    {x : Effect ε σ α} {s : τ} {P : Except ε α → σ → Prop} {Q : Except ε' α → τ → Prop}
    (hx : Ensures x (part s) P) (hok : ∀ a s', P (.ok a) s' → Q (.ok a) (store s' s))
    (herror : ∀ e s', P (.error e) s' → Q (.error (raises e)) (store s' s)) :
    Ensures (zoom part store raises x) s Q := by
  rw [ensures_zoom]
  refine hx.imp fun r s' h => ?_
  cases r with
  | ok a => exact hok a s' h
  | error e => exact herror e s' h

/-- Two things a program ensures, together. -/
theorem Ensures.and {x : Effect ε σ α} {P : Except ε α → σ → Prop} (hP : Ensures x s P)
    (hQ : Ensures x s Q) : Ensures x s fun r s' => P r s' ∧ Q r s' := ⟨hP, hQ⟩

/-- The block runs whatever happened, and the result is the body's. -/
theorem ensures_withFinally {x : Effect ε σ α} {f : σ → σ} :
    Ensures (withFinally x f) s Q ↔ Ensures x s fun r s' => Q r (f s') := Iff.rfl

/-- The block starts from whatever state the body left, and only its own exception changes
the result. -/
theorem ensures_finallyDo {x : Effect ε σ α} {block : Effect ε σ Unit} :
    Ensures (finallyDo x block) s Q ↔ Ensures x s fun r s' =>
      Ensures block s' fun r' s'' =>
        match r' with
        | .ok _ => Q r s''
        | .error e => Q (.error e) s'' := by
  have hexec : exec (finallyDo x block) s = match exec block (exec x s).2 with
      | (.ok _, s') => ((exec x s).1, s')
      | (.error e, s') => (.error e, s') := rfl
  unfold Ensures
  rw [hexec]
  beta_reduce
  generalize exec block (exec x s).2 = out
  obtain ⟨r', s''⟩ := out
  cases r' with
  | ok _ => rfl
  | error e => rfl

end Rules

/-! ## Programs that leave the state alone -/

/-- The program's result is `r` and the state is as it was. -/
def Returns (x : Effect ε σ α) (s : σ) (r : Except ε α) : Prop := exec x s = (r, s)

section Returns

variable {s : σ} {r : Except ε α} {x : Effect ε σ α}

/-- A call returns what it was given, without a trace in the state. -/
theorem returns_call : Returns (call r : Effect ε σ α) s r := rfl

/-- A value returns itself. -/
theorem returns_pure {a : α} : Returns (pure a : Effect ε σ α) s (.ok a) := rfl

/-- A call that raises ends the program. -/
theorem exec_call_error_bind {e : ε} {f : β → Effect ε σ α} :
    exec (call (.error e) >>= f) s = (.error e, s) := rfl

/-- A call that returns hands on its result. -/
theorem exec_call_ok_bind {b : β} {f : β → Effect ε σ α} :
    exec (call (.ok b) >>= f) s = exec (f b) s := rfl

/-- What a program with a known result ensures is what holds of that result. -/
theorem Returns.ensures_iff (h : Returns x s r) {Q : Except ε α → σ → Prop} :
    Ensures x s Q ↔ Q r s := by
  unfold Ensures
  rw [h]

end Returns

/-! ## Programs that keep an invariant -/

/-- `P` is kept, whether the program returns or raises. -/
def Keeps (P : σ → Prop) (x : Effect ε σ α) : Prop :=
  ∀ s, P s → Ensures x s fun _ s' => P s'

section Keeps

variable {P : σ → Prop}

/-- Returning changes no state, so every property is kept. -/
theorem keeps_pure {a : α} : Keeps P (pure a : Effect ε σ α) := fun _ h => h

/-- An exception changes no state either. -/
theorem keeps_throw {e : ε} : Keeps P (throw e : Effect ε σ α) := fun _ h => h

/-- A change keeps what the function on states keeps. -/
theorem keeps_update {f : σ → σ} (hf : ∀ s, P s → P (f s)) :
    Keeps P (update f : Effect ε σ Unit) := hf

/-- A call outside keeps every property of the program's own state. -/
theorem keeps_call {r : Except ε α} : Keeps P (call r : Effect ε σ α) := fun _ h => h

/-- Two programs in a row keep what each keeps, and where the first raises there is only the first.
-/
theorem keeps_bind {x : Effect ε σ α} {f : α → Effect ε σ β} (hx : Keeps P x)
    (hf : ∀ a, Keeps P (f a)) : Keeps P (x >>= f) := by
  intro s hs
  rw [ensures_bind]
  have h := hx s hs
  unfold Ensures at h ⊢
  cases (exec x s).1 with
  | ok a => exact hf a _ h
  | error e => exact h

/-- A conditional keeps what its branches keep, each knowing its condition. -/
theorem keeps_ite' {c : Prop} [Decidable c] {x y : Effect ε σ α} (hx : c → Keeps P x)
    (hy : ¬ c → Keeps P y) : Keeps P (if c then x else y) := by
  split
  · exact hx ‹_›
  · exact hy ‹_›

/-- The same where neither branch needs the condition. -/
theorem keeps_ite {c : Prop} [Decidable c] {x y : Effect ε σ α} (hx : Keeps P x)
    (hy : Keeps P y) : Keeps P (if c then x else y) :=
  keeps_ite' (fun _ => hx) fun _ => hy

end Keeps

/-! ## Programs that move along a relation -/

/-- The state left behind is related to the start state, whether the program returns or raises. -/
def Moves (R : σ → σ → Prop) (x : Effect ε σ α) : Prop :=
  ∀ s, Ensures x s fun _ s' => R s s'

section Moves

variable {R : σ → σ → Prop}

/-- A program that moves along a relation moves along every weaker one. -/
theorem Moves.imp {R' : σ → σ → Prop} {x : Effect ε σ α} (h : Moves R x)
    (himp : ∀ s s', R s s' → R' s s') : Moves R' x := fun s => (h s).imp fun _ s' => himp s s'

/-- A change moves along whatever relates each state to its image. -/
theorem moves_update {f : σ → σ} (hf : ∀ s, R s (f s)) : Moves R (update f : Effect ε σ Unit) := hf

/-- A program that starts by reading moves as the rest of it does from the state it read. -/
theorem moves_get_bind {f : σ → Effect ε σ β} (hf : ∀ s, Moves R (f s)) : Moves R (get >>= f) :=
  fun s => hf s s

/-- A conditional moves along what both branches move along. -/
theorem moves_ite {c : Prop} [Decidable c] {x y : Effect ε σ α} (hx : Moves R x)
    (hy : Moves R y) : Moves R (if c then x else y) := by
  split
  · exact hx
  · exact hy

/-- Returning stays, which a reflexive relation allows. -/
theorem moves_pure [Std.Refl R] {a : α} : Moves R (pure a : Effect ε σ α) :=
  fun s => Std.Refl.refl s

/-- A call outside stays as well. -/
theorem moves_call [Std.Refl R] {r : Except ε α} : Moves R (call r : Effect ε σ α) :=
  fun s => Std.Refl.refl s

/-- Along a transitive relation two moves in a row are one. -/
theorem moves_bind [IsTrans σ R] {x : Effect ε σ α} {f : α → Effect ε σ β} (hx : Moves R x)
    (hf : ∀ a, Moves R (f a)) : Moves R (x >>= f) := by
  intro s
  refine (hx s).bind (fun a s' hs' => ?_) fun e s' hs' => hs'
  exact (hf a s').imp fun _ s'' hs'' => IsTrans.trans s s' s'' hs' hs''

/-- A loop over a list moves along a relation that is reflexive and transitive if its body does, by
induction on the list. -/
theorem moves_mapM [Std.Refl R] [IsTrans σ R] {f : α → Effect ε σ β} (hf : ∀ a, Moves R (f a))
    (items : List α) : Moves R (items.mapM f) := by
  induction items with
  | nil => exact moves_pure
  | cons a rest ih =>
    rw [List.mapM_cons]
    exact moves_bind (hf a) fun b => moves_bind ih fun bs => moves_pure

end Moves

end Effect
