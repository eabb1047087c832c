import SkCoord.Graph.Path
import SkCoord.Python.Assoc
import Mathlib.Data.List.Nodup

/-!
# Breadth-first search with two bounds

A search expands the points of a queue and keeps the path on which it found each.  It does not expand
points that are `maxDepth` steps away and ends at the point that would be one more than `maxNodes`,
and says that it is `truncated` where this leaves something out.  Every search comes to an end
(`exists_run`), and more fuel makes no difference to it (`run_mono`).
-/

namespace DirectedGraph

open Relation

variable {α β : Type*}

/-- A point on the queue, with the path on which it was found. -/
structure Waiting (α : Type*) where
  node : α
  depth : ℕ
  path : List α

/-- A point that was found. -/
structure Found (α β : Type*) where
  node : α
  label : β
  depth : ℕ

/-- The variables of a search. -/
structure Breadth (α β : Type*) where
  queue : List (Waiting α)
  seen : List α
  nodes : List (Found α β) := []
  cycles : List (List α) := []
  truncated : Bool := false

/-- Only the start is on the queue. -/
def Breadth.initial (a : α) : Breadth α β where
  queue := [⟨a, 0, [a]⟩]
  seen := [a]

section

variable [DecidableEq α]

/-- The search with one more point. -/
def Breadth.found (s : Breadth α β) (w : Waiting α) (a : α) (b : β) : Breadth α β :=
  { s with
    seen := s.seen ++ [a]
    nodes := s.nodes ++ [⟨a, b, w.depth + 1⟩]
    queue := s.queue ++ [⟨a, w.depth + 1, w.path ++ [a]⟩] }

/-- The search with one more path that comes back to itself. -/
def Breadth.loop (s : Breadth α β) (w : Waiting α) (a : α) : Breadth α β :=
  { s with cycles := s.cycles ++ [w.path ++ [a]] }

/-- The search behind the last point that it may find. -/
def Breadth.cut (s : Breadth α β) : Breadth α β := { s with truncated := true, queue := [] }

/-- The loop over the links of a point. -/
def Breadth.scan (maxNodes : ℕ) (w : Waiting α) : Breadth α β → List (α × β) → Breadth α β
  | s, [] => s
  | s, (a, b) :: links =>
    if a ∈ w.path then scan maxNodes w (s.loop w a) links
    else if a ∈ s.seen then scan maxNodes w s links
    else if maxNodes ≤ s.nodes.length then s.cut
    else scan maxNodes w (s.found w a b) links

variable (links : α → List (α × β)) (maxDepth maxNodes : ℕ)

/-- One turn of the loop over the queue. -/
def Breadth.turn (w : Waiting α) (s : Breadth α β) : Breadth α β :=
  if maxDepth ≤ w.depth then { s with truncated := s.truncated || !(links w.node).isEmpty }
  else s.scan maxNodes w (links w.node)

/-- The loop over the queue, with so many turns at most. -/
def Breadth.run : ℕ → Breadth α β → Option (Breadth α β)
  | 0, _ => none
  | fuel + 1, s =>
    match s.queue with
    | [] => some s
    | w :: queue => run fuel (Breadth.turn links maxDepth maxNodes w { s with queue })

end

/-! ### Every search comes to an end -/

section

variable [DecidableEq α] {links : α → List (α × β)} {maxDepth maxNodes : ℕ}

/-- How many points of a list were not seen. -/
def missing (points seen : List α) : ℕ := (points.filter fun a => a ∉ seen).length

/-- The points of a list that were not seen, and those on the queue. -/
def Breadth.todo (points : List α) (s : Breadth α β) : ℕ := missing points s.seen + s.queue.length

theorem missing_concat_lt {points seen : List α} {a : α} (ha : a ∈ points) (hnew : a ∉ seen) :
    missing points (seen ++ [a]) < missing points seen := by
  have hsub : (points.filter fun x => x ∉ seen ++ [a]) =
      (points.filter fun x => x ∉ seen).filter fun x => x ≠ a := by
    rw [List.filter_filter]
    refine List.filter_congr fun x _ => ?_
    simp [and_comm]
  rw [missing, hsub]
  refine List.length_filter_lt_length_iff_exists.mpr ⟨a, ?_, by simp⟩
  exact List.mem_filter.mpr ⟨ha, by simpa using hnew⟩

/-- A point that is found is not to be found any more. -/
theorem Breadth.todo_found {points : List α} {s : Breadth α β} {w : Waiting α} {a : α} {b : β}
    (ha : a ∈ points) (hnew : a ∉ s.seen) : (s.found w a b).todo points ≤ s.todo points := by
  have hlt := missing_concat_lt ha hnew
  simp only [Breadth.todo, Breadth.found, List.length_append, List.length_singleton]
  omega

theorem Breadth.todo_scan {points : List α} {w : Waiting α} :
    ∀ {l : List (α × β)} {s : Breadth α β}, (∀ p ∈ l, p.1 ∈ points) →
      (s.scan maxNodes w l).todo points ≤ s.todo points
  | [], s, _ => le_rfl
  | (a, b) :: l, s, h => by
    have hl : ∀ p ∈ l, p.1 ∈ points := fun p hp => h p (List.mem_cons_of_mem _ hp)
    unfold Breadth.scan
    split
    · exact Breadth.todo_scan (s := s.loop w a) hl
    · split
      · exact Breadth.todo_scan hl
      · rename_i hnew
        split
        · simp [Breadth.todo, Breadth.cut]
        · exact (Breadth.todo_scan hl).trans (Breadth.todo_found (h (a, b) List.mem_cons_self) hnew)

theorem Breadth.todo_turn {points : List α} {w : Waiting α} {s : Breadth α β}
    (h : ∀ p ∈ links w.node, p.1 ∈ points) :
    (s.turn links maxDepth maxNodes w).todo points ≤ s.todo points := by
  unfold Breadth.turn
  split
  · exact le_rfl
  · exact Breadth.todo_scan h

/-- **A search comes to an end** when the points that it can find are those of a list. -/
theorem Breadth.exists_run {points : List α} (h : ∀ a, ∀ p ∈ links a, p.1 ∈ points) :
    ∀ {fuel : ℕ} {s : Breadth α β}, s.todo points < fuel →
      ∃ t, s.run links maxDepth maxNodes fuel = some t
  | 0, s, hfuel => absurd hfuel (Nat.not_lt_zero _)
  | fuel + 1, s, hfuel => by
    unfold Breadth.run
    cases hqueue : s.queue with
    | nil => exact ⟨s, rfl⟩
    | cons w queue =>
      refine Breadth.exists_run h ?_
      have hpop : ({ s with queue } : Breadth α β).todo points + 1 = s.todo points := by
        simp only [Breadth.todo, hqueue, List.length_cons]
        omega
      have hturn : (({ s with queue } : Breadth α β).turn links maxDepth maxNodes w).todo points ≤
          ({ s with queue } : Breadth α β).todo points := Breadth.todo_turn (h w.node)
      omega

/-- More turns than a search needs change nothing. -/
theorem Breadth.run_mono {fuel more : ℕ} {s t : Breadth α β}
    (h : s.run links maxDepth maxNodes fuel = some t) (hle : fuel ≤ more) :
    s.run links maxDepth maxNodes more = some t := by
  induction fuel generalizing s more with
  | zero => cases h
  | succ fuel ih =>
    obtain ⟨more, rfl⟩ : ∃ m, more = m + 1 := ⟨more - 1, by omega⟩
    unfold Breadth.run at h ⊢
    cases hqueue : s.queue with
    | nil =>
      rw [hqueue] at h
      exact h
    | cons w queue =>
      rw [hqueue] at h
      exact ih h (by omega)

end

end DirectedGraph
