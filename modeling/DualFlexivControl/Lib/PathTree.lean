/-
Trees whose nodes are found by their paths, as in a scene graph, a file system or a registry.

Such a tree is a partial function of paths, and a program builds it with calls that name one path
each: [`put`] is a list of calls that set nodes, [`adjust`] one of calls that change the nodes
there are. Where no two calls name one path their order makes no difference, and each node is
what its own call says.

What a node inherits is the product of what stands at the prefixes of its path ([`along`]), in
any monoid: the pose of a frame in the world, or whether it is shown.
-/
import Mathlib.Algebra.BigOperators.Group.List.Basic
import Mathlib.Data.List.Nodup
import Mathlib.Logic.Function.Basic

set_option autoImplicit false

namespace PathTree

section Calls

variable {α β : Type} [DecidableEq α]

/-- Each call sets the node at its path. -/
def put (tree : List α → Option β) (calls : List (List α × β)) : List α → Option β :=
  calls.foldl (fun tree call => Function.update tree call.1 (some call.2)) tree

/-- Each call changes the node at its path, if there is one. -/
def adjust (tree : List α → Option β) (calls : List (List α × (β → β))) : List α → Option β :=
  calls.foldl (fun tree call => Function.update tree call.1 ((tree call.1).map call.2)) tree

@[simp] theorem put_cons (tree : List α → Option β) (call : List α × β)
    (rest : List (List α × β)) :
    put tree (call :: rest) = put (Function.update tree call.1 (some call.2)) rest := rfl

@[simp] theorem adjust_cons (tree : List α → Option β) (call : List α × (β → β))
    (rest : List (List α × (β → β))) : adjust tree (call :: rest) =
      adjust (Function.update tree call.1 ((tree call.1).map call.2)) rest := rfl

theorem put_of_not_mem {tree : List α → Option β} {calls : List (List α × β)} {p : List α}
    (h : ∀ call ∈ calls, call.1 ≠ p) : put tree calls p = tree p := by
  induction calls generalizing tree with
  | nil => rfl
  | cons call rest ih =>
    rw [put_cons, ih (fun c hc => h c (List.mem_cons_of_mem _ hc)),
      Function.update_of_ne (h call List.mem_cons_self).symm]

/-- The node that all calls at a path agree on. -/
theorem put_of_mem {tree : List α → Option β} {calls : List (List α × β)} {p : List α} {v : β}
    (hmem : (p, v) ∈ calls) (hagree : ∀ v', (p, v') ∈ calls → v' = v) :
    put tree calls p = some v := by
  induction calls generalizing tree with
  | nil => exact absurd hmem List.not_mem_nil
  | cons call rest ih =>
    rw [put_cons]
    by_cases hlater : (p, v) ∈ rest
    · exact ih hlater fun v' hv' => hagree v' (List.mem_cons_of_mem _ hv')
    · -- then this call is the last one at the path
      have hcall : call = (p, v) := (List.mem_cons.1 hmem).resolve_right hlater |>.symm
      rw [hcall, put_of_not_mem, Function.update_self]
      intro c hc hpath
      have hv' := hagree c.2 (List.mem_cons_of_mem _ (by rw [← hpath]; exact hc))
      exact hlater (by rw [← hpath, ← hv']; exact hc)

theorem adjust_of_not_mem {tree : List α → Option β} {calls : List (List α × (β → β))}
    {p : List α} (h : p ∉ calls.map Prod.fst) : adjust tree calls p = tree p := by
  induction calls generalizing tree with
  | nil => rfl
  | cons call rest ih =>
    rw [List.map_cons, List.mem_cons, not_or] at h
    rw [adjust_cons, ih h.2, Function.update_of_ne h.1]

theorem adjust_of_mem {tree : List α → Option β} {calls : List (List α × (β → β))}
    (hnodup : (calls.map Prod.fst).Nodup) {p : List α} {f : β → β} (hmem : (p, f) ∈ calls) :
    adjust tree calls p = (tree p).map f := by
  induction calls generalizing tree with
  | nil => exact absurd hmem List.not_mem_nil
  | cons call rest ih =>
    rw [List.map_cons, List.nodup_cons] at hnodup
    rw [adjust_cons]
    rcases List.mem_cons.1 hmem with rfl | hlater
    · rw [adjust_of_not_mem hnodup.1, Function.update_self]
    · have hne : p ≠ call.1 := by
        rintro rfl
        exact hnodup.1 (List.mem_map.2 ⟨_, hlater, rfl⟩)
      rw [ih hnodup.2 hlater, Function.update_of_ne hne]

end Calls

section Nested

variable {α : Type}

/-- The paths of nodes that each lie in the one before. -/
def nested (path : List α) : List α → List (List α)
  | [] => []
  | name :: rest => (path ++ [name]) :: nested (path ++ [name]) rest

theorem nested_getElem? (path names : List α) (i : ℕ) :
    (nested path names)[i]? = names[i]?.map fun _ => path ++ names.take (i + 1) := by
  induction names generalizing path i with
  | nil => rfl
  | cons name rest ih =>
    cases i with
    | zero => rfl
    | succ i =>
      show (nested (path ++ [name]) rest)[i]? = rest[i]?.map _
      rw [ih]
      simp

@[simp] theorem length_nested (path names : List α) :
    (nested path names).length = names.length := by
  induction names generalizing path with
  | nil => rfl
  | cons name rest ih => exact congrArg (· + 1) (ih _)

theorem mem_nested {path names p : List α} :
    p ∈ nested path names ↔ ∃ i < names.length, p = path ++ names.take (i + 1) := by
  rw [List.mem_iff_getElem?]
  constructor
  · rintro ⟨i, hi⟩
    rw [nested_getElem?, Option.map_eq_some_iff] at hi
    obtain ⟨name, hname, rfl⟩ := hi
    exact ⟨i, (List.getElem?_eq_some_iff.1 hname).1, rfl⟩
  · rintro ⟨i, hi, rfl⟩
    exact ⟨i, by rw [nested_getElem?, List.getElem?_eq_getElem hi]; rfl⟩

theorem nested_append (path a b : List α) :
    nested path (a ++ b) = nested path a ++ nested (path ++ a) b := by
  induction a generalizing path with
  | nil => rw [List.append_nil]; rfl
  | cons name rest ih =>
    rw [List.cons_append, nested, ih, List.append_assoc]
    rfl

/-- They grow, so that none is there twice. -/
theorem nodup_nested (path names : List α) : (nested path names).Nodup := by
  induction names generalizing path with
  | nil => exact List.nodup_nil
  | cons name rest ih =>
    refine List.nodup_cons.2 ⟨?_, ih _⟩
    rw [mem_nested]
    rintro ⟨i, hi, heq⟩
    have hlength := congrArg List.length heq
    rw [show (path ++ [name] ++ rest.take (i + 1)).length = (path ++ [name]).length + (i + 1) by
      rw [List.length_append, List.length_take, Nat.min_eq_left hi]] at hlength
    omega

/-- The first place of a mark cuts a path in two. -/
theorem append_mark_inj {mark : α} {a b x y : List α} (ha : mark ∉ a) (hb : mark ∉ b)
    (h : a ++ mark :: x = b ++ mark :: y) : a = b ∧ x = y := by
  rcases List.append_eq_append_iff.1 h with ⟨c, rfl, hc⟩ | ⟨c, rfl, hc⟩
  · cases c with
    | nil => exact ⟨(List.append_nil a).symm, (List.cons.inj hc).2⟩
    | cons m c =>
      obtain rfl := (List.cons.inj hc).1
      exact absurd (List.mem_append_right a List.mem_cons_self) hb
  · cases c with
    | nil => exact ⟨List.append_nil b, (List.cons.inj hc).2.symm⟩
    | cons m c =>
      obtain rfl := (List.cons.inj hc).1
      exact absurd (List.mem_append_right b List.mem_cons_self) ha

end Nested

section Along

variable {α M : Type} [Monoid M]

/-- The product of what stands at the prefixes of a path, from a node on. -/
def along (f : List α → M) : List α → List α → M
  | _, [] => 1
  | node, name :: rest => f (node ++ [name]) * along f (node ++ [name]) rest

theorem along_append (f : List α → M) (node a b : List α) :
    along f node (a ++ b) = along f node a * along f (node ++ a) b := by
  induction a generalizing node with
  | nil => simp [along]
  | cons name rest ih => simp [along, ih, mul_assoc]

theorem along_nested (f : List α → M) (node names : List α) :
    along f node names = ((nested node names).map f).prod := by
  induction names generalizing node with
  | nil => rfl
  | cons name rest ih => rw [along, nested, List.map_cons, List.prod_cons, ih]

theorem along_eq_one {f : List α → M} {node names : List α}
    (h : ∀ p, p <+: names → p ≠ [] → f (node ++ p) = 1) : along f node names = 1 := by
  rw [along_nested]
  apply List.prod_eq_one
  rintro m hm
  obtain ⟨p, hp, rfl⟩ := List.mem_map.1 hm
  obtain ⟨i, hi, rfl⟩ := mem_nested.1 hp
  refine h _ (List.take_prefix _ _) fun hempty => ?_
  rw [List.take_eq_nil_iff] at hempty
  rcases hempty with hzero | rfl
  · exact absurd hzero (Nat.succ_ne_zero i)
  · exact absurd hi (Nat.not_lt_zero i)

/-- Only what stands at the end, if nothing stands above it. -/
theorem along_eq_last {f : List α → M} {path : List α} (hpath : path ≠ [])
    (h : ∀ p, p <+: path → p ≠ path → f p = 1) : along f [] path = f path := by
  obtain ⟨init, last, rfl⟩ := (List.eq_nil_or_concat' path).resolve_left hpath
  have habove : along f [] init = 1 := by
    refine along_eq_one fun p hp _ => h p (hp.trans (List.prefix_append _ _)) ?_
    rintro rfl
    have hlength := hp.length_le
    rw [List.length_append, List.length_singleton] at hlength
    omega
  rw [along_append, habove, one_mul]
  exact mul_one _

end Along

end PathTree
