import SkCoord.Python.Assoc
import Mathlib.Algebra.GroupWithZero.Nat
import Mathlib.Logic.Relation

/-!
# Depth-first search in an adjacency dictionary

`search` looks for a point from the points on a stack, expanding every point once.  The
dictionary is finite, so `searchFuel` steps are enough, and the search answers exactly whether the
point can be reached (`search_iff`).  `searchLoop` is the loop without that bound, and ends within it
(`searchLoop_eq_search`).
-/

namespace DirectedGraph

open Python Relation

variable {α : Type*} [DecidableEq α]

/-- The successors of a point. -/
def successors (edges : Assoc α (List α)) (a : α) : List α := (Assoc.get? edges a).getD []

/-- There is an edge from `a` to `b`. -/
def Edge (edges : Assoc α (List α)) (a b : α) : Prop := b ∈ successors edges a

/-- Pop a point; stop at the target; push the successors of a point that is new. -/
def search (edges : Assoc α (List α)) (target : α) : ℕ → List α → List α → Bool
  | 0, _, _ => false
  | _ + 1, _, [] => false
  | fuel + 1, seen, a :: stack =>
    if a = target then true
    else if a ∈ seen then search edges target fuel seen stack
    else search edges target fuel (a :: seen) ((successors edges a).reverse ++ stack)

/-- The edges out of the points that were not seen. -/
def pending (edges : Assoc α (List α)) (seen : List α) : ℕ :=
  ((edges.filter fun p => p.1 ∉ seen).map fun p => p.2.length).sum

/-- Enough steps for a search from one point. -/
def searchFuel (edges : Assoc α (List α)) : ℕ := pending edges [] + 2

variable {edges : Assoc α (List α)} {target : α}

/-- Expanding a new point uses up its edges. -/
theorem successors_length_add_pending {a : α} {seen : List α} (ha : a ∉ seen) :
    (successors edges a).length + pending edges (a :: seen) ≤ pending edges seen := by
  unfold successors pending
  induction edges with
  | nil => simp
  | cons p edges ih =>
    obtain ⟨b, l⟩ := p
    by_cases hb : b = a
    · subst hb
      -- the first binding is the one that is read, the later ones only count
      have hrest : ((edges.filter fun p => p.1 ∉ b :: seen).map fun p => p.2.length).sum ≤
          ((edges.filter fun p => p.1 ∉ seen).map fun p => p.2.length).sum := by omega
      simp only [Assoc.get?_cons, if_pos, Option.getD_some, List.filter_cons, List.mem_cons,
        true_or, not_true, decide_false, Bool.false_eq_true, if_false, ha, not_false_eq_true,
        decide_true, List.map_cons, List.sum_cons]
      simp only [List.mem_cons] at hrest
      omega
    · by_cases hs : b ∈ seen
      · simpa [Assoc.get?_cons, hb, hs, List.filter_cons] using ih
      · simp only [Assoc.get?_cons, List.filter_cons, List.mem_cons, hb, hs, or_self, if_false,
          not_false_eq_true, decide_true, if_true, List.map_cons, List.sum_cons] at ih ⊢
        omega

/-- A search that succeeds has found a point of the stack that reaches the target. -/
theorem search_sound : ∀ {fuel : ℕ} {seen stack : List α},
    search edges target fuel seen stack = true →
      ∃ a ∈ stack, ReflTransGen (Edge edges) a target
  | 0, _, _, h => by cases h
  | _ + 1, _, [], h => by cases h
  | fuel + 1, seen, a :: stack, h => by
    unfold search at h
    split at h
    · rename_i ha
      exact ⟨a, List.mem_cons_self, ha ▸ .refl⟩
    · split at h
      · obtain ⟨b, hb, hreach⟩ := search_sound h
        exact ⟨b, List.mem_cons_of_mem _ hb, hreach⟩
      · obtain ⟨b, hb, hreach⟩ := search_sound h
        rcases List.mem_append.mp hb with hnew | hold
        · exact ⟨a, List.mem_cons_self, .head (List.mem_reverse.mp hnew) hreach⟩
        · exact ⟨b, List.mem_cons_of_mem _ hold, hreach⟩

/-- A set that is closed under the edges and lacks the target does not reach it. -/
theorem not_reach_of_closed {S : α → Prop} (hclosed : ∀ a b, S a → Edge edges a b → S b)
    (htarget : ¬S target) {a : α} (ha : S a) : ¬ReflTransGen (Edge edges) a target := by
  intro hreach
  induction hreach using ReflTransGen.head_induction_on with
  | refl => exact htarget ha
  | head hstep _ ih => exact ih (hclosed _ _ ha hstep)

/-- A search that fails with enough steps left has seen all there is to reach: what is seen is
closed under the edges, up to what is still on the stack. -/
theorem search_complete : ∀ {fuel : ℕ} {seen stack : List α},
    pending edges seen + stack.length < fuel →
    (∀ a ∈ seen, ∀ b, Edge edges a b → b ∈ seen ∨ b ∈ stack) → target ∉ seen →
    search edges target fuel seen stack = false →
    ∀ a, a ∈ seen ∨ a ∈ stack → ¬ReflTransGen (Edge edges) a target
  | 0, _, _, hfuel, _, _, _ => by omega
  | _ + 1, seen, [], _, hclosed, htarget, _ => by
    intro a ha
    have hseen : a ∈ seen := ha.resolve_right List.not_mem_nil
    refine not_reach_of_closed (S := fun b => b ∈ seen) ?_ htarget hseen
    intro b c hb hbc
    exact (hclosed b hb c hbc).resolve_right List.not_mem_nil
  | fuel + 1, seen, a :: stack, hfuel, hclosed, htarget, h => by
    rw [List.length_cons] at hfuel
    unfold search at h
    split at h
    · cases h
    · rename_i hne
      split at h
      · rename_i hseen
        -- a point that was seen before is dropped, and the measure by one
        have hclosed' : ∀ b ∈ seen, ∀ c, Edge edges b c → c ∈ seen ∨ c ∈ stack := by
          intro b hb c hbc
          rcases hclosed b hb c hbc with hc | hc
          · exact Or.inl hc
          · rcases List.mem_cons.mp hc with rfl | hc
            · exact Or.inl hseen
            · exact Or.inr hc
        intro b hb
        refine search_complete (by omega) hclosed' htarget h b ?_
        rcases hb with hb | hb
        · exact Or.inl hb
        · rcases List.mem_cons.mp hb with rfl | hb
          · exact Or.inl hseen
          · exact Or.inr hb
      · rename_i hnew
        -- a new point brings its successors, which leave the pending ones
        have hpend : (successors edges a).length + pending edges (a :: seen) ≤ pending edges seen :=
          successors_length_add_pending hnew
        have hlen : ((successors edges a).reverse ++ stack).length =
            (successors edges a).length + stack.length := by
          rw [List.length_append, List.length_reverse]
        have hclosed' : ∀ b ∈ a :: seen, ∀ c, Edge edges b c →
            c ∈ a :: seen ∨ c ∈ (successors edges a).reverse ++ stack := by
          intro b hb c hbc
          rcases List.mem_cons.mp hb with rfl | hb
          · exact Or.inr (List.mem_append_left _ (List.mem_reverse.mpr hbc))
          · rcases hclosed b hb c hbc with hc | hc
            · exact Or.inl (List.mem_cons_of_mem _ hc)
            · rcases List.mem_cons.mp hc with rfl | hc
              · exact Or.inl List.mem_cons_self
              · exact Or.inr (List.mem_append_right _ hc)
        have htarget' : target ∉ a :: seen := by
          rw [List.mem_cons]
          rintro (rfl | ht)
          · exact hne rfl
          · exact htarget ht
        intro b hb
        refine search_complete (by omega) hclosed' htarget' h b ?_
        rcases hb with hb | hb
        · exact Or.inl (List.mem_cons_of_mem _ hb)
        · rcases List.mem_cons.mp hb with rfl | hb
          · exact Or.inl List.mem_cons_self
          · exact Or.inr (List.mem_append_right _ hb)

/-! ### The loop -/

/-- The loop of the search; there is no answer yet when it has not ended after so many turns. -/
def searchLoop (edges : Assoc α (List α)) (target : α) : ℕ → List α → List α → Option Bool
  | _, _, [] => some false
  | 0, _, _ :: _ => none
  | fuel + 1, seen, a :: stack =>
    if a = target then some true
    else if a ∈ seen then searchLoop edges target fuel seen stack
    else searchLoop edges target fuel (a :: seen) ((successors edges a).reverse ++ stack)

/-- **The loop ends**: a turn pops a point, and every edge is pushed once at most. -/
theorem searchLoop_eq_search : ∀ {fuel : ℕ} {seen stack : List α},
    pending edges seen + stack.length < fuel →
      searchLoop edges target fuel seen stack = some (search edges target fuel seen stack)
  | 0, _, _, hfuel => by omega
  | _ + 1, _, [], _ => rfl
  | fuel + 1, seen, a :: stack, hfuel => by
    rw [List.length_cons] at hfuel
    unfold searchLoop search
    by_cases ha : a = target
    · rw [if_pos ha, if_pos ha]
    · rw [if_neg ha, if_neg ha]
      by_cases hseen : a ∈ seen
      · rw [if_pos hseen, if_pos hseen]
        exact searchLoop_eq_search (by omega)
      · rw [if_neg hseen, if_neg hseen]
        have hpend : (successors edges a).length + pending edges (a :: seen) ≤ pending edges seen :=
          successors_length_add_pending hseen
        refine searchLoop_eq_search ?_
        rw [List.length_append, List.length_reverse]
        omega

/-- More turns do not change the answer. -/
theorem searchLoop_mono {b : Bool} : ∀ {fuel more : ℕ} {seen stack : List α}, fuel ≤ more →
    searchLoop edges target fuel seen stack = some b →
      searchLoop edges target more seen stack = some b
  | _, _, _, [], _, h => by
    unfold searchLoop at h ⊢
    exact h
  | 0, _, _, _ :: _, _, h => by
    unfold searchLoop at h
    cases h
  | _ + 1, 0, _, _ :: _, hle, _ => by omega
  | fuel + 1, more + 1, seen, a :: stack, hle, h => by
    unfold searchLoop at h ⊢
    by_cases ha : a = target
    · rwa [if_pos ha] at h ⊢
    · rw [if_neg ha] at h ⊢
      by_cases hseen : a ∈ seen
      · rw [if_pos hseen] at h ⊢
        exact searchLoop_mono (Nat.le_of_succ_le_succ hle) h
      · rw [if_neg hseen] at h ⊢
        exact searchLoop_mono (Nat.le_of_succ_le_succ hle) h

/-- **The search decides reachability.** -/
theorem search_iff {start : α} :
    search edges target (searchFuel edges) [] [start] = true ↔
      ReflTransGen (Edge edges) start target := by
  constructor
  · intro h
    obtain ⟨a, ha, hreach⟩ := search_sound h
    rwa [List.mem_singleton.mp ha] at hreach
  · intro hreach
    by_contra h
    have hfuel : pending edges [] + [start].length < searchFuel edges := by
      unfold searchFuel
      rw [List.length_singleton]
      omega
    exact search_complete hfuel (fun a ha => by cases ha) List.not_mem_nil
      (Bool.eq_false_of_not_eq_true h) start (Or.inr List.mem_cons_self) hreach

end DirectedGraph
