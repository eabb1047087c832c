import Mathlib

/-!
# Shortest paths

A path is the list of its points, from the start on.  A point that can be reached has a shortest path
(`IsShortest.exists`), and among the shortest ones there is one that leads all the others in the
order of words (`IsLeading`); it is the path on which a breadth-first search finds the point.
-/

namespace DirectedGraph

open Relation

variable {α : Type*} {r : α → α → Prop} {a b c : α} {p q : List α}

/-- `p` is a path from `a` to `b`. -/
inductive Path (r : α → α → Prop) (a : α) : List α → α → Prop
  | start : Path r a [a] a
  | step {p : List α} {b c : α} : Path r a p b → r b c → Path r a (p ++ [c]) c

/-- A path without a shorter one. -/
def IsShortest (r : α → α → Prop) (a : α) (p : List α) (b : α) : Prop :=
  Path r a p b ∧ ∀ q, Path r a q b → p.length ≤ q.length

/-- The shortest paths to `b` have `n` steps. -/
def IsDist (r : α → α → Prop) (a : α) (n : ℕ) (b : α) : Prop :=
  ∃ p, IsShortest r a p b ∧ p.length = n + 1

/-! ### Paths -/

theorem Path.length_pos (h : Path r a p b) : 0 < p.length := by
  cases h with
  | start => exact Nat.zero_lt_one
  | step _ _ => simp

theorem Path.reach (h : Path r a p b) : ReflTransGen r a b := by
  induction h with
  | start => exact .refl
  | step _ hstep ih => exact ih.tail hstep

/-- The points of a path are reached. -/
theorem Path.reach_of_mem (h : Path r a p b) {x : α} (hx : x ∈ p) : ReflTransGen r a x := by
  induction h with
  | start => rw [List.mem_singleton.mp hx]
  | step hp hstep ih =>
    rcases List.mem_append.mp hx with hx | hx
    · exact ih hx
    · rw [List.mem_singleton.mp hx]
      exact hp.reach.tail hstep

/-- From each point of a path its end is reached. -/
theorem Path.reach_end (h : Path r a p b) {x : α} (hx : x ∈ p) : ReflTransGen r x b := by
  induction h with
  | start => rw [List.mem_singleton.mp hx]
  | step hp hstep ih =>
    rcases List.mem_append.mp hx with hx | hx
    · exact (ih hx).tail hstep
    · rw [List.mem_singleton.mp hx]

/-- A path ends at a point from which there is a step to the end, unless it has no step. -/
theorem Path.split (h : Path r a p b) (hne : b ≠ a) :
    ∃ q c, p = q ++ [b] ∧ Path r a q c ∧ r c b := by
  cases h with
  | start => exact absurd rfl hne
  | step hq hstep => exact ⟨_, _, rfl, hq, hstep⟩

/-- A path is a chain that ends at its end. -/
theorem Path.isChain (h : Path r a p b) : p.IsChain r ∧ p.getLast? = some b := by
  induction h with
  | start => exact ⟨List.isChain_singleton _, rfl⟩
  | step _ hstep ih =>
    refine ⟨List.isChain_append.mpr ⟨ih.1, List.isChain_singleton _, fun x hx y hy => ?_⟩,
      List.getLast?_concat⟩
    rw [ih.2] at hx
    cases hx
    cases hy
    exact hstep

theorem exists_path_iff : (∃ p, Path r a p b) ↔ ReflTransGen r a b := by
  constructor
  · rintro ⟨p, hp⟩
    exact hp.reach
  · intro h
    induction h with
    | refl => exact ⟨[a], .start⟩
    | tail _ hstep ih =>
      obtain ⟨p, hp⟩ := ih
      exact ⟨_, hp.step hstep⟩

/-- Where there is a path there is a shortest one. -/
theorem IsShortest.exists (h : ReflTransGen r a b) : ∃ p, IsShortest r a p b := by
  obtain ⟨p, hp⟩ := exists_path_iff.mpr h
  induction hn : p.length using Nat.strong_induction_on generalizing p with
  | _ n ih =>
    by_cases hshort : ∀ q, Path r a q b → p.length ≤ q.length
    · exact ⟨p, hp, hshort⟩
    · push Not at hshort
      obtain ⟨q, hq, hlt⟩ := hshort
      exact ih q.length (hn ▸ hlt) q hq rfl

theorem exists_isDist_iff : (∃ n, IsDist r a n b) ↔ ReflTransGen r a b := by
  constructor
  · rintro ⟨n, p, hp, -⟩
    exact hp.1.reach
  · intro h
    obtain ⟨p, hp⟩ := IsShortest.exists h
    have hpos := hp.1.length_pos
    exact ⟨p.length - 1, p, hp, by omega⟩

/-! ### Cycles -/

/-- A list ends in a cycle. -/
def EndsInCycle (r : α → α → Prop) (l : List α) : Prop :=
  ∃ p a q, l = p ++ (a :: q ++ [a]) ∧ (a :: q ++ [a]).IsChain r

/-- A path with a step back to one of its points ends in a cycle. -/
theorem Path.endsInCycle (h : Path r a p b) (hstep : r b c) (hmem : c ∈ p) :
    EndsInCycle r (p ++ [c]) := by
  obtain ⟨front, q, rfl⟩ := List.append_of_mem hmem
  have hchain := (h.step hstep).isChain.1
  rw [List.append_assoc] at hchain ⊢
  exact ⟨front, c, q, rfl, (List.isChain_append.mp hchain).2.1⟩

/-- The point that the step goes back to lies on a cycle, and is reached. -/
theorem Path.cycle (h : Path r a p b) (hstep : r b c) (hmem : c ∈ p) :
    ReflTransGen r a c ∧ TransGen r c c :=
  ⟨h.reach_of_mem hmem, .tail' (h.reach_end hmem) hstep⟩

/-! ### The leading path -/

section

variable [LinearOrder α]

/-- The shortest path that comes first in the order of words. -/
def IsLeading (r : α → α → Prop) (a : α) (p : List α) (b : α) : Prop :=
  IsShortest r a p b ∧ ∀ q, IsShortest r a q b → p ≤ q

/-- Some step goes back to the leading path of the point that it starts from. -/
def LoopsBack (r : α → α → Prop) (a : α) : Prop :=
  ∃ p b c, IsLeading r a p b ∧ r b c ∧ c ∈ p

theorem IsLeading.unique (h : IsLeading r a p b) (h' : IsLeading r a q b) : p = q :=
  le_antisymm (h.2 q h'.1) (h'.2 p h.1)

theorem isLeading_start : IsLeading r a [a] a := by
  refine ⟨⟨.start, fun q hq => hq.length_pos⟩, fun q hq => ?_⟩
  obtain ⟨hq, hmin⟩ := hq
  cases hq with
  | start => exact le_rfl
  | step hq' _ =>
    have hlen := hmin [a] .start
    have hpos := hq'.length_pos
    simp only [List.length_append, List.length_singleton] at hlen
    omega

/-- Words of one length are compared before what stands behind them. -/
theorem append_lt_append (h : p < q) (hlen : p.length = q.length) (s t : List α) :
    p ++ s < q ++ t := by
  induction p generalizing q with
  | nil =>
    cases q with
    | nil => exact absurd h (lt_irrefl _)
    | cons y q => cases hlen
  | cons x p ih =>
    cases q with
    | nil => cases hlen
    | cons y q =>
      rw [List.cons_append, List.cons_append]
      rcases List.cons_lt_cons_iff.mp h with hlt | ⟨rfl, hlt⟩
      · exact List.cons_lt_cons_iff.mpr (.inl hlt)
      · exact List.cons_lt_cons_iff.mpr (.inr ⟨rfl, ih hlt (Nat.succ.inj hlen)⟩)

theorem append_le_append (h : p ≤ q) (hlen : p.length = q.length) (s : List α) :
    p ++ s ≤ q ++ s := by
  rcases h.lt_or_eq with hlt | rfl
  · exact (append_lt_append hlt hlen s s).le
  · exact le_rfl

theorem concat_lt_concat (h : b < c) (p : List α) : p ++ [b] < p ++ [c] := by
  induction p with
  | nil => exact List.cons_lt_cons_iff.mpr (.inl h)
  | cons x p ih => exact List.cons_lt_cons_iff.mpr (.inr ⟨rfl, ih⟩)

end

end DirectedGraph
