import SkCoord.CardStore.Equiv.FoldedGraph

/-!
# The cycle check is exact

`wouldCreateCycle_exact`: the loop of `would_create_cycle` ends on every dictionary, with the answer
whether the dependency is the card or leads to it, and dependencies of a new card that are checked one
by one, none of them added yet, close no cycle together.
-/

namespace SkCoord

open Python Relation DirectedGraph

variable {edges : Assoc String (List String)} {cardId dependencyId : String}
variable {dependencies : List String}

/-- `would_create_cycle`, with no answer when its loop goes on after so many turns. -/
def wouldCreateCycleWithin (turns : ℕ) (edges : Assoc String (List String))
    (cardId dependencyId : String) : Option Bool :=
  if cardId = dependencyId then some true
  else searchLoop edges cardId turns [] [dependencyId]

/-- The loop ends after as many turns as there are edges, and one for the dependency. -/
theorem wouldCreateCycleWithin_eq {turns : ℕ} (h : searchFuel edges ≤ turns) :
    wouldCreateCycleWithin turns edges cardId dependencyId =
      some (wouldCreateCycle edges cardId dependencyId) := by
  unfold wouldCreateCycleWithin wouldCreateCycle
  by_cases heq : cardId = dependencyId
  · rw [if_pos heq, if_pos heq]
  · rw [if_neg heq, if_neg heq]
    have hfuel : pending edges [] + [dependencyId].length < searchFuel edges := by
      unfold searchFuel
      rw [List.length_singleton]
      omega
    exact searchLoop_mono h (searchLoop_eq_search hfuel)

/-- The dependency is the card or leads to it over an edge. -/
theorem wouldCreateCycle_iff_eq_or : wouldCreateCycle edges cardId dependencyId = true ↔
    dependencyId = cardId ∨ TransGen (Edge edges) dependencyId cardId := by
  rw [Store.wouldCreateCycle_iff, reflTransGen_iff_eq_or_transGen]
  exact or_congr eq_comm Iff.rfl

/-- The edges of a card that is born with dependencies. -/
theorem edge_set_iff {a b : String} : Edge (Assoc.set edges cardId dependencies) a b ↔
    if a = cardId then b ∈ dependencies else Edge edges a b := by
  unfold Edge successors
  rw [Assoc.get?_set]
  by_cases ha : a = cardId
  · rw [if_pos ha, if_pos ha]
    rfl
  · rw [if_neg ha, if_neg ha]

/-- **Checked dependencies** close no cycle together. -/
theorem acyclic_of_checked (hacyclic : Acyclic (Edge edges))
    (hchecked : ∀ d ∈ dependencies, wouldCreateCycle edges cardId d = false) :
    Acyclic (Edge (Assoc.set edges cardId dependencies)) := by
  refine Acyclic.insert (c := cardId) (fun a b hab => ?_) hacyclic
  rw [edge_set_iff] at hab
  by_cases ha : a = cardId
  · -- an edge out of the new card was checked
    rw [if_pos ha] at hab
    refine .inr ⟨ha, fun hreach => ?_⟩
    have hno := hchecked b hab
    rw [Store.wouldCreateCycle_iff.mpr hreach] at hno
    cases hno
  · rw [if_neg ha] at hab
    exact .inl hab

/-- **The cycle check is exact.** On every graph it comes to an answer, which is yes exactly when
the dependency is the card itself or leads to it; and a card without dependencies may be given
several whose checks all pass without closing a cycle. -/
theorem wouldCreateCycle_exact :
    (∀ (edges : Assoc String (List String)) (cardId dependencyId : String),
      ∃ answer, (∃ turns, ∀ more ≥ turns,
          wouldCreateCycleWithin more edges cardId dependencyId = some answer) ∧
        (answer = true ↔
          dependencyId = cardId ∨ TransGen (Edge edges) dependencyId cardId)) ∧
    ∀ (edges : Assoc String (List String)) (cardId : String) (dependencies : List String),
      Acyclic (Edge edges) → (∀ b, ¬Edge edges cardId b) →
        (∀ d ∈ dependencies, ∃ turns,
          wouldCreateCycleWithin turns edges cardId d = some false) →
          Acyclic (Edge (Assoc.set edges cardId dependencies)) := by
  refine ⟨fun edges cardId dependencyId => ?_, fun edges cardId dependencies hacyclic _ hno => ?_⟩
  · exact ⟨wouldCreateCycle edges cardId dependencyId,
      ⟨searchFuel edges, fun more hmore => wouldCreateCycleWithin_eq hmore⟩,
      wouldCreateCycle_iff_eq_or⟩
  · refine acyclic_of_checked hacyclic fun d hd => ?_
    obtain ⟨turns, hturns⟩ := hno d hd
    -- the answer is the same after more turns
    have hmore : wouldCreateCycleWithin (max turns (searchFuel edges)) edges cardId d =
        some false := by
      unfold wouldCreateCycleWithin at hturns ⊢
      by_cases heq : cardId = d
      · rwa [if_pos heq] at hturns ⊢
      · rw [if_neg heq] at hturns ⊢
        exact searchLoop_mono (Nat.le_max_left _ _) hturns
    rw [wouldCreateCycleWithin_eq (Nat.le_max_right _ _)] at hmore
    exact Option.some.inj hmore

/-- A card that is born with two dependencies, of which one has the other. -/
theorem wouldCreateCycle_exact_born :
    Acyclic (Edge (Assoc.set [("b", ["a"])] "c" ["a", "b"])) := by
  have hcycle : Acyclic (Edge [("b", ["a"])]) := by
    refine Acyclic.mono (r := fun x y : String => x = "b" ∧ y = "a") (fun x hx => ?_) ?_
    · obtain ⟨y, ⟨rfl, rfl⟩, hback⟩ := TransGen.head'_iff.mp hx
      obtain heq | ⟨z, hstep, -⟩ := ReflTransGen.cases_head hback
      · exact absurd heq (by decide)
      · exact absurd hstep.1 (by decide)
    · intro x y hxy
      unfold Edge successors at hxy
      by_cases hb : "b" = x
      · subst hb
        exact ⟨rfl, List.mem_singleton.mp hxy⟩
      · rw [Assoc.get?_cons, if_neg hb] at hxy
        exact (List.not_mem_nil hxy).elim
  refine wouldCreateCycle_exact.2 [("b", ["a"])] "c" ["a", "b"] hcycle (fun b hb => ?_)
    (fun d hd => ⟨5, ?_⟩)
  · exact List.not_mem_nil hb
  · simp only [List.mem_cons, List.not_mem_nil, or_false] at hd
    rcases hd with rfl | rfl <;> decide

end SkCoord
