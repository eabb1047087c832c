import SkCoord.Graph.Search
import SkCoord.Snapshot.Equiv.Masked

/-!
# The path behind an edge

`PathRun` is the loop of `_path_nodes` without a bound on its turns; `pathNodes_run` says that it
comes to an end with what `pathNodes` returns.  A path that is not limited holds exactly what the
start reaches (`mem_pathNodes_iff`), so the conditions of a finding that is not partial are those of
the cards behind its edge (`findings_exact`).
-/

namespace SkCoord.Snapshot

open Python DirectedGraph Relation

/-! ### The loop -/

/-- The loop of `_path_nodes`, with what it returns from a state. -/
inductive PathRun (graph : Assoc String (List String)) :
    List (String × ℕ) → List String → Bool → List String × Bool → Prop
  | empty {ordered : List String} {limited : Bool} :
      PathRun graph [] ordered limited (ordered, limited)
  | full {entry : String × ℕ} {stack : List (String × ℕ)} {ordered : List String} {limited : Bool}
      (hfull : maxPathDepth ≤ ordered.length) :
      PathRun graph (entry :: stack) ordered limited (ordered, true)
  | seen {node : String} {depth : ℕ} {stack : List (String × ℕ)} {ordered : List String}
      {limited : Bool} {r : List String × Bool} (hroom : ordered.length < maxPathDepth)
      (hseen : node ∈ ordered) (hrest : PathRun graph stack ordered limited r) :
      PathRun graph ((node, depth) :: stack) ordered limited r
  | deep {node : String} {depth : ℕ} {stack : List (String × ℕ)} {ordered : List String}
      {limited : Bool} {r : List String × Bool} (hroom : ordered.length < maxPathDepth)
      (hnew : node ∉ ordered) (hdeep : maxPathDepth - 1 ≤ depth)
      (hrest : PathRun graph stack (ordered ++ [node])
        (limited || !(successors graph node).isEmpty) r) :
      PathRun graph ((node, depth) :: stack) ordered limited r
  | expand {node : String} {depth : ℕ} {stack : List (String × ℕ)} {ordered : List String}
      {limited : Bool} {r : List String × Bool} (hroom : ordered.length < maxPathDepth)
      (hnew : node ∉ ordered) (hdepth : depth < maxPathDepth - 1)
      (hrest : PathRun graph (((successors graph node).map fun child => (child, depth + 1)) ++ stack)
        (ordered ++ [node]) limited r) :
      PathRun graph ((node, depth) :: stack) ordered limited r

variable {graph : Assoc String (List String)} {ordered : List String} {stack : List (String × ℕ)}
  {limited : Bool} {r : List String × Bool} {start : String}

theorem pending_concat (node : String) :
    pending graph (ordered ++ [node]) = pending graph (node :: ordered) := by
  unfold pending
  refine congrArg (fun l => (List.map _ l).sum) (List.filter_congr fun p _ => ?_)
  simp [or_comm]

/-- The loop ends: a node that is new uses up its edges, one that is not only leaves the stack. -/
theorem pathLoop_run : ∀ {n : ℕ} {stack : List (String × ℕ)} {ordered : List String} {limited : Bool},
    pending graph ordered + stack.length ≤ n →
      PathRun graph stack ordered limited (pathLoop graph n stack ordered limited)
  | n, [], ordered, limited, _ => by
    cases n <;> exact .empty
  | 0, _ :: _, _, _, hfuel => by
    rw [List.length_cons] at hfuel
    omega
  | n + 1, (node, depth) :: stack, ordered, limited, hfuel => by
    rw [List.length_cons] at hfuel
    unfold pathLoop
    split
    · rename_i hfull
      exact .full hfull
    · rename_i hroom
      have hroom' : ordered.length < maxPathDepth := not_le.mp hroom
      split
      · rename_i hseen
        exact .seen hroom' (List.contains_iff_mem.mp hseen) (pathLoop_run (by omega))
      · rename_i hseen
        have hnew : node ∉ ordered := fun h => hseen (List.contains_iff_mem.mpr h)
        have hpending : (successors graph node).length + pending graph (node :: ordered) ≤
            pending graph ordered := successors_length_add_pending hnew
        rw [← pending_concat] at hpending
        dsimp only
        split
        · rename_i hdeep
          exact .deep hroom' hnew hdeep (pathLoop_run (by omega))
        · rename_i hdeep
          refine .expand hroom' hnew (not_le.mp hdeep) (pathLoop_run ?_)
          rw [List.length_append, List.length_map]
          show _ + ((successors graph node).length + stack.length) ≤ n
          omega

/-- **The loop comes to an end** on every graph, with what `pathNodes` returns. -/
theorem pathNodes_run (start : String) (graph : Assoc String (List String)) :
    PathRun graph [(start, 0)] [] false (pathNodes start graph) := by
  refine pathLoop_run ?_
  have hpending : pending graph [] = (graph.map fun p => p.2.length).sum := by
    simp [pending]
  rw [hpending, List.length_singleton]

/-! ### What it returns -/

/-- What is on the stack or has been collected is reached. -/
theorem PathRun.reached (h : PathRun graph stack ordered limited r)
    (hstack : ∀ p ∈ stack, ReflTransGen (Edge graph) start p.1)
    (hordered : ∀ a ∈ ordered, ReflTransGen (Edge graph) start a) :
    ∀ a ∈ r.1, ReflTransGen (Edge graph) start a := by
  induction h with
  | empty => exact hordered
  | full _ => exact hordered
  | seen _ _ _ ih => exact ih (fun p hp => hstack p (List.mem_cons_of_mem _ hp)) hordered
  | @deep node depth stack ordered limited r _ _ _ _ ih =>
    refine ih (fun p hp => hstack p (List.mem_cons_of_mem _ hp)) fun a ha => ?_
    rcases List.mem_append.mp ha with ha | ha
    · exact hordered a ha
    · rw [List.mem_singleton.mp ha]
      exact hstack (node, depth) List.mem_cons_self
  | @expand node depth stack ordered limited r _ _ _ _ ih =>
    have hnode := hstack (node, depth) List.mem_cons_self
    refine ih (fun p hp => ?_) fun a ha => ?_
    · rcases List.mem_append.mp hp with hp | hp
      · obtain ⟨child, hchild, rfl⟩ := List.mem_map.mp hp
        exact hnode.tail hchild
      · exact hstack p (List.mem_cons_of_mem _ hp)
    · rcases List.mem_append.mp ha with ha | ha
      · exact hordered a ha
      · rw [List.mem_singleton.mp ha]
        exact hnode

/-- What has been collected is in the end among what is returned. -/
theorem PathRun.subset (h : PathRun graph stack ordered limited r) : ordered ⊆ r.1 := by
  induction h with
  | empty => exact List.Subset.refl _
  | full _ => exact List.Subset.refl _
  | seen _ _ _ ih => exact ih
  | deep _ _ _ _ ih => exact fun a ha => ih (List.mem_append_left _ ha)
  | expand _ _ _ _ ih => exact fun a ha => ih (List.mem_append_left _ ha)

/-- A path stays limited. -/
theorem PathRun.limited_of (h : PathRun graph stack ordered limited r) (hlimited : limited = true) :
    r.2 = true := by
  induction h with
  | empty => exact hlimited
  | full _ => rfl
  | seen _ _ _ ih => exact ih hlimited
  | deep _ _ _ _ ih => exact ih (by rw [hlimited, Bool.true_or])
  | expand _ _ _ _ ih => exact ih hlimited

/-- **Closed under the edges**: what a path that is not limited returns holds the stack, and the
successors of all that it has collected. -/
theorem PathRun.closed (h : PathRun graph stack ordered limited r) (hcomplete : r.2 = false)
    (hclosed : ∀ a ∈ ordered, ∀ b, Edge graph a b → b ∈ ordered ∨ b ∈ stack.map Prod.fst) :
    (∀ p ∈ stack, p.1 ∈ r.1) ∧ ∀ a ∈ r.1, ∀ b, Edge graph a b → b ∈ r.1 := by
  induction h with
  | empty =>
    refine ⟨fun p hp => absurd hp List.not_mem_nil, fun a ha b hedge => ?_⟩
    exact (hclosed a ha b hedge).resolve_right List.not_mem_nil
  | full _ => cases hcomplete
  | @seen node depth stack ordered limited r _ hseen hrest ih =>
    obtain ⟨hstack, hall⟩ := ih hcomplete fun a ha b hedge => by
      rcases hclosed a ha b hedge with hb | hb
      · exact .inl hb
      · rcases List.mem_cons.mp hb with rfl | hb
        · exact .inl hseen
        · exact .inr hb
    refine ⟨fun p hp => ?_, hall⟩
    rcases List.mem_cons.mp hp with rfl | hp
    · exact hrest.subset hseen
    · exact hstack p hp
  | @deep node depth stack ordered limited r _ _ _ hrest ih =>
    -- a node that deep has no successors, or the path is limited
    have hempty : successors graph node = [] := by
      by_contra hne
      have hlimited := hrest.limited_of (by
        rw [Bool.or_eq_true, Bool.not_eq_true', List.isEmpty_eq_false_iff]
        exact .inr hne)
      rw [hcomplete] at hlimited
      cases hlimited
    obtain ⟨hstack, hall⟩ := ih hcomplete fun a ha b hedge => by
      rcases List.mem_append.mp ha with ha | ha
      · rcases hclosed a ha b hedge with hb | hb
        · exact .inl (List.mem_append_left _ hb)
        · rcases List.mem_cons.mp hb with rfl | hb
          · exact .inl (List.mem_append_right _ List.mem_cons_self)
          · exact .inr hb
      · rw [List.mem_singleton.mp ha, Edge, hempty] at hedge
        exact absurd hedge List.not_mem_nil
    refine ⟨fun p hp => ?_, hall⟩
    rcases List.mem_cons.mp hp with rfl | hp
    · exact hrest.subset (List.mem_append_right _ List.mem_cons_self)
    · exact hstack p hp
  | @expand node depth stack ordered limited r _ _ _ hrest ih =>
    obtain ⟨hstack, hall⟩ := ih hcomplete fun a ha b hedge => by
      rw [List.map_append, List.map_map]
      rcases List.mem_append.mp ha with ha | ha
      · rcases hclosed a ha b hedge with hb | hb
        · exact .inl (List.mem_append_left _ hb)
        · rcases List.mem_cons.mp hb with rfl | hb
          · exact .inl (List.mem_append_right _ List.mem_cons_self)
          · exact .inr (List.mem_append_right _ hb)
      · rw [List.mem_singleton.mp ha] at hedge
        exact .inr (List.mem_append_left _ (List.mem_map.mpr ⟨b, hedge, rfl⟩))
    refine ⟨fun p hp => ?_, hall⟩
    rcases List.mem_cons.mp hp with rfl | hp
    · exact hrest.subset (List.mem_append_right _ List.mem_cons_self)
    · exact hstack p (List.mem_append_right _ hp)

/-- What a path holds is reached, limited or not. -/
theorem reach_of_mem_pathNodes {a : String} (ha : a ∈ (pathNodes start graph).1) :
    ReflTransGen (Edge graph) start a := by
  refine (pathNodes_run start graph).reached (fun p hp => ?_)
    (fun b hb => absurd hb List.not_mem_nil) a ha
  rw [List.mem_singleton.mp hp]

/-- **A path that is not limited** holds exactly what the start reaches. -/
theorem mem_pathNodes_iff (hcomplete : (pathNodes start graph).2 = false) {a : String} :
    a ∈ (pathNodes start graph).1 ↔ ReflTransGen (Edge graph) start a := by
  refine ⟨reach_of_mem_pathNodes, fun hreach => ?_⟩
  obtain ⟨hstack, hclosed⟩ := (pathNodes_run start graph).closed hcomplete
    fun a ha => absurd ha List.not_mem_nil
  induction hreach with
  | refl => exact hstack (start, 0) List.mem_cons_self
  | tail _ hedge ih => exact hclosed _ ih _ hedge

/-! ### Findings -/

/-- The cards by their identifiers. -/
def cardsById (cards : List Card) : Assoc String Card := dictOf (cards.map fun c => (c.id, c))

/-- A dependency graph over some cards. -/
structure IsOver (graph : Assoc String (List String)) (cards : List Card) : Prop where
  target : ∀ a b, Edge graph a b → b ∈ cards.map Card.id

/-- A card that a human has to approve, under the mask. -/
def isHumanGated (decision : AuthorizedCardSetDecision) (c : Card) : Bool :=
  decision.fieldMask.contains "human_gate" && c.status ≠ .done &&
    (classes c decision.semanticClasses).contains "human-gate"

/-- The card is reached from the target of an edge. -/
def Behind (graph : Assoc String (List String)) (cards : List Card) (targetId : String) (c : Card) :
    Prop :=
  ∃ a, ReflTransGen (Edge graph) targetId a ∧ Assoc.get? (cardsById cards) a = some c

/-- The card is the source of an edge, or is reached from its target. -/
def OnEdge (graph : Assoc String (List String)) (cards : List Card) (sourceId targetId : String)
    (c : Card) : Prop :=
  Assoc.get? (cardsById cards) sourceId = some c ∨ Behind graph cards targetId c

/-- **The conditions of a finding** are those of the cards on its edge. -/
structure Finding.IsExact (E : SnapshotEnv) (decision : AuthorizedCardSetDecision) (now : Int)
    (graph : Assoc String (List String)) (cards : List Card) (sourceId targetId : String)
    (f : Finding) : Prop where
  cycle : "dependency_cycle" ∈ f.conditions ↔ ReflTransGen (Edge graph) targetId sourceId
  gated : "human_gated" ∈ f.conditions ↔
    ∃ c, OnEdge graph cards sourceId targetId c ∧ isHumanGated decision c = true
  stale : "stale" ∈ f.conditions ↔
    ∃ c, Behind graph cards targetId c ∧ isStale E decision.fieldMask now c = true
  conflict : "record_claim_conflict" ∈ f.conditions ↔
    ∃ c, OnEdge graph cards sourceId targetId c ∧ conflict c decision.fieldMask = true

section

variable {E : SnapshotEnv} {decision : AuthorizedCardSetDecision} {now : Int} {cards : List Card}
  {sourceId targetId : String}

theorem cardsById_spec (cards : List Card) {a : String} :
    (a ∈ cards.map Card.id → ∃ c, Assoc.get? (cardsById cards) a = some c) ∧
    ∀ c, Assoc.get? (cardsById cards) a = some c → c.id = a := by
  constructor
  · intro ha
    rw [← Option.isSome_iff_exists, Assoc.get?_isSome_iff, cardsById, dictOf,
      Assoc.mem_keys_foldl_set]
    right
    rw [Assoc.keys, List.map_map]
    exact ha
  · intro c hc
    have hkey : ∀ p ∈ cardsById cards, p.1 = p.2.id := by
      rw [cardsById, dictOf, List.foldl_map]
      exact (Assoc.foldl_set_key Card.id cards).2
    exact (hkey _ (Assoc.mem_of_get? hc)).symm

/-- What is reached over a graph of some cards is one of them. -/
theorem IsOver.reach (h : IsOver graph cards) (htarget : targetId ∈ cards.map Card.id) {a : String}
    (hreach : ReflTransGen (Edge graph) targetId a) : a ∈ cards.map Card.id := by
  cases hreach with
  | refl => exact htarget
  | tail _ hedge => exact h.target _ _ hedge

/-- The graph of a projection is one over its cards. -/
theorem graphOf_isOver (decision : AuthorizedCardSetDecision) (cards : List Card) :
    IsOver (graphOf (dependencyMap decision cards)) cards := by
  refine ⟨fun a b hedge => ?_⟩
  unfold Edge successors graphOf at hedge
  rw [Assoc.get?_map (fun deps : Option (List String × List String) => (deps.map Prod.fst).getD [])]
    at hedge
  cases hget : Assoc.get? (dependencyMap decision cards) a with
  | none =>
    rw [hget] at hedge
    exact absurd hedge List.not_mem_nil
  | some deps =>
    rw [hget] at hedge
    -- the dependencies of a card are chosen among the cards
    have hdeps : ∀ p ∈ dependencyMap decision cards, ∀ l ∈ p.2, ∀ x ∈ l.1, x ∈ cards.map Card.id := by
      unfold dependencyMap dictOf
      refine List.foldlRecOn (motive := fun d : Assoc String (Option (List String × List String)) =>
        ∀ p ∈ d, ∀ l ∈ p.2, ∀ x ∈ l.1, x ∈ cards.map Card.id)
        _ _ (fun p hp => absurd hp List.not_mem_nil) fun d hd p hp q hq => ?_
      obtain ⟨c, -, rfl⟩ := List.mem_map.mp hp
      rcases Assoc.mem_set hq with rfl | hq
      · intro l hl x hx
        dsimp only at hl
        split at hl
        · unfold safeVisibleDependencies at hl
          dsimp only at hl
          split at hl
          · cases hl
          · cases hl
            rw [sortedSet, (List.perm_insertionSort _ _).mem_iff, List.mem_dedup,
              List.mem_filter] at hx
            exact List.contains_iff_mem.mp hx.2
        · cases hl
          exact absurd hx List.not_mem_nil
      · exact hd q hq
    cases deps with
    | none => exact absurd hedge List.not_mem_nil
    | some l => exact hdeps _ (Assoc.mem_of_get? hget) l rfl b hedge

/-- The cards of the path of a target. -/
theorem mapM_cardAt (h : IsOver graph cards) (htarget : targetId ∈ cards.map Card.id) :
    ∃ pathCards, (pathNodes targetId graph).1.mapM (cardAt (cardsById cards)) = .ok pathCards := by
  refine exists_mapM_ok fun a ha => ?_
  obtain ⟨c, hc⟩ := (cardsById_spec cards).1 (h.reach htarget (reach_of_mem_pathNodes ha))
  exact ⟨c, by rw [cardAt, hc]; rfl⟩

theorem cardAt_eq_ok {byId : Assoc String Card} {a : String} {c : Card} :
    cardAt byId a = .ok c ↔ Assoc.get? byId a = some c := by
  unfold cardAt
  cases Assoc.get? byId a with
  | none => exact ⟨fun h => (nomatch h), fun h => (nomatch h)⟩
  | some c' => rw [pure_eq_ok, Option.some.injEq]

/-- The cards of a path that is not limited are those behind the edge. -/
theorem mem_pathCards {pathCards : List Card}
    (hcards : (pathNodes targetId graph).1.mapM (cardAt (cardsById cards)) = .ok pathCards)
    (hcomplete : (pathNodes targetId graph).2 = false) {c : Card} :
    c ∈ pathCards ↔ Behind graph cards targetId c := by
  rw [mem_mapM_iff hcards]
  simp only [mem_pathNodes_iff hcomplete, cardAt_eq_ok]
  rfl

/-- The finding of an edge over a graph of the cards. -/
theorem classify_isExact (h : IsOver graph cards) (hsource : sourceId ∈ cards.map Card.id)
    (htarget : targetId ∈ cards.map Card.id) :
    ∃ f, classify E decision now graph (cardsById cards) (sourceId, targetId, "visible") = .ok f ∧
      ("path_classification_partial" ∉ f.conditions →
        f.IsExact E decision now graph cards sourceId targetId) := by
  obtain ⟨source, hsrc⟩ := (cardsById_spec cards).1 hsource
  obtain ⟨target, htgt⟩ := (cardsById_spec cards).1 htarget
  obtain ⟨pathCards, hpath⟩ := mapM_cardAt h htarget
  have hsourceId := (cardsById_spec cards).2 source hsrc
  have htargetId := (cardsById_spec cards).2 target htgt
  refine ⟨edgeOf E decision now graph source target pathCards, ?_, fun hpartial => ?_⟩
  · unfold classify
    dsimp only
    rw [cardAt_eq_ok.mpr hsrc, ok_bind, if_pos rfl, cardAt_eq_ok.mpr htgt, ok_bind, hpath]
    rfl
  have hcomplete : (pathNodes targetId graph).2 = false := by
    rw [← htargetId, ← Bool.not_eq_true]
    intro hlimited
    exact hpartial (by simp [edgeOf, hlimited])
  have hmem : ∀ c, c ∈ pathCards ↔ Behind graph cards targetId c :=
    fun c => mem_pathCards hpath hcomplete
  have hedge : ∀ c, c ∈ source :: pathCards ↔ OnEdge graph cards sourceId targetId c := by
    intro c
    rw [List.mem_cons, OnEdge, hmem, hsrc, Option.some.injEq, eq_comm]
  refine ⟨?_, ?_, ?_, ?_⟩
  · rw [← mem_pathNodes_iff hcomplete, ← htargetId, ← hsourceId]
    simp [edgeOf]
  · simp only [← hedge]
    simp [edgeOf, isHumanGated]
  · simp only [← hmem]
    simp [edgeOf]
  · simp only [← hedge]
    simp [edgeOf]

/-- **Findings are exact unless they are partial.**  The loop over the paths ends on every graph;
the edge of two cards has a finding, and where that is not partial its conditions are exact. -/
theorem findings_exact (E : SnapshotEnv) (decision : AuthorizedCardSetDecision) (now : Int)
    (h : IsOver graph cards) (hsource : sourceId ∈ cards.map Card.id)
    (htarget : targetId ∈ cards.map Card.id) :
    (∀ start, PathRun graph [(start, 0)] [] false (pathNodes start graph)) ∧
    ∃ f, classify E decision now graph (cardsById cards) (sourceId, targetId, "visible") = .ok f ∧
      ("path_classification_partial" ∉ f.conditions →
        f.IsExact E decision now graph cards sourceId targetId) :=
  ⟨fun start => pathNodes_run start graph, classify_isExact h hsource htarget⟩

/-- The visible edges of a projection are edges of its cards. -/
theorem projected_edge_isExact {a b : String}
    (hedge : (a, b, "visible") ∈ edgesOf "visible" (graphOf (dependencyMap decision cards))) :
    ∃ f, classify E decision now (graphOf (dependencyMap decision cards)) (cardsById cards)
        (a, b, "visible") = .ok f ∧
      ("path_classification_partial" ∉ f.conditions →
        f.IsExact E decision now (graphOf (dependencyMap decision cards)) cards a b) := by
  rw [edgesOf, (List.perm_insertionSort _ _).mem_iff, List.mem_flatMap] at hedge
  obtain ⟨p, hp, htarget⟩ := hedge
  obtain ⟨target, hmem, heq⟩ := List.mem_map.mp htarget
  cases heq
  obtain ⟨q, hq, rfl⟩ := List.mem_map.mp hp
  have hkeys : (Assoc.keys (dependencyMap decision cards)).Nodup := by
    unfold dependencyMap dictOf
    exact Assoc.nodup_keys_foldl_set _ List.nodup_nil
  have hsource : q.1 ∈ cards.map Card.id := by
    have hkey : q.1 ∈ Assoc.keys (dependencyMap decision cards) := List.mem_map_of_mem hq
    rw [dependencyMap, dictOf, Assoc.mem_keys_foldl_set, Assoc.keys, Assoc.keys, List.map_map] at hkey
    exact hkey.resolve_left List.not_mem_nil
  refine classify_isExact (graphOf_isOver decision cards) hsource
    ((graphOf_isOver decision cards).target q.1 b ?_)
  unfold Edge successors graphOf
  rw [Assoc.get?_map (fun deps : Option (List String × List String) => (deps.map Prod.fst).getD []),
    Assoc.get?_of_mem hkeys (k := q.1) (v := q.2) hq]
  exact hmem

end

/-! ### Two cards that wait for each other -/

/-- Two cards, each of which depends on the other. -/
def loopCards : List Card := [edgeCard "a" ["b"], edgeCard "b" ["a"]]

/-- Their graph. -/
def loopGraph : Assoc String (List String) := graphOf (dependencyMap januaryDecision loopCards)

/-- The finding of an edge of the loop. -/
theorem findings_exact_loop :
    (∀ start, PathRun loopGraph [(start, 0)] [] false (pathNodes start loopGraph)) ∧
    ∃ f, classify januaryEnv januaryDecision 1767225600000000 loopGraph (cardsById loopCards)
        ("a", "b", "visible") = .ok f ∧
      ("path_classification_partial" ∉ f.conditions →
        f.IsExact januaryEnv januaryDecision 1767225600000000 loopGraph loopCards "a" "b") :=
  findings_exact januaryEnv januaryDecision 1767225600000000 (graphOf_isOver _ _) (by decide)
    (by decide)

end SkCoord.Snapshot
