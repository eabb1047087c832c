import SkCoord.Cmdb.Equiv.Growth
import SkCoord.Cmdb.Impact
import SkCoord.Graph.Acyclic
import SkCoord.Graph.BreadthPaths

/-!
# What the impact graph says

`impactGraph_exact`: it comes to an end, its dependents stand at their distances, and when it is not
truncated they are all that depend on the item.  `findsCycles_iff`: its cycles are the leading paths
with a link that comes back to them, so it can miss cycles; it has found that there are some exactly
when there are none or some link comes back to a leading path.
-/

namespace SkCoord.Cmdb

open Python DirectedGraph Relation

/-! ### Links -/

/-- The item `b` depends on `a`. -/
def HasDependent (cis : Assoc String ConfigItem) (a b : String) : Prop :=
  ∃ ci, Assoc.get? cis b = some ci ∧
    ∃ rel ∈ ci.relationships, rel.isDependency = true ∧ rel.target = a

/-- **An exact impact graph** of an item: only items that depend on it, each once and with its
distance, and all of them where the graph is not truncated. -/
structure ImpactGraph.IsExact (g : ImpactGraph) (cis : Assoc String ConfigItem) (ciId : String) :
    Prop where
  once : (g.dependents.map ImpactNode.id).Nodup
  dependent : ∀ d ∈ g.dependents, d.id ≠ ciId ∧ ReflTransGen (HasDependent cis) ciId d.id ∧
    IsDist (HasDependent cis) ciId d.depth d.id
  complete : g.truncated = false → ∀ a, a ∈ g.dependents.map ImpactNode.id ↔
    a ≠ ciId ∧ ReflTransGen (HasDependent cis) ciId a

section

variable {cis : List ConfigItem}

theorem byIdentifier_spec (cis : List ConfigItem) :
    (Assoc.keys (byIdentifier cis)).Nodup ∧ ∀ p ∈ byIdentifier cis, p.1 = p.2.id :=
  Assoc.foldl_set_key ConfigItem.id cis

/-- The sorted links to an item are its dependents. -/
theorem mem_sortedLinks {a b rel : String} :
    (b, rel) ∈ sortedLinks (reverseLinks (byIdentifier cis)) a ↔
      ∃ ci, Assoc.get? (byIdentifier cis) b = some ci ∧
        ∃ r ∈ ci.relationships, r.isDependency = true ∧ r.target = a ∧ r.relType = rel := by
  obtain ⟨hnodup, hkey⟩ := byIdentifier_spec cis
  rw [sortedLinks, (List.perm_insertionSort _ _).mem_iff, reverseLinks, Assoc.get?_foldl_addValue]
  simp only [Assoc.get?_nil, Option.getD_none, List.nil_append, Assoc.valuesOf, List.mem_map,
    List.mem_filter, List.mem_flatMap, decide_eq_true_eq]
  constructor
  · rintro ⟨_, ⟨⟨p, hp, r, ⟨hr, hdep⟩, rfl⟩, htarget⟩, heq⟩
    obtain ⟨rfl, rfl⟩ := Prod.mk.inj heq
    refine ⟨p.2, ?_, r, hr, hdep, htarget, rfl⟩
    rw [← hkey p hp]
    exact Assoc.get?_of_mem hnodup hp
  · rintro ⟨ci, hci, r, hr, hdep, htarget, rfl⟩
    have hmem := Assoc.mem_of_get? hci
    refine ⟨_, ⟨⟨_, hmem, r, ⟨hr, hdep⟩, rfl⟩, htarget⟩, ?_⟩
    rw [← hkey _ hmem]

theorem linked_eq : Linked (sortedLinks (reverseLinks (byIdentifier cis))) =
    HasDependent (byIdentifier cis) := by
  funext a b
  refine propext ?_
  simp only [Linked, mem_sortedLinks, HasDependent]
  constructor
  · rintro ⟨rel, ci, hci, r, hr, hdep, htarget, -⟩
    exact ⟨ci, hci, r, hr, hdep, htarget⟩
  · rintro ⟨ci, hci, r, hr, hdep, htarget⟩
    exact ⟨r.relType, ci, hci, r, hr, hdep, htarget, rfl⟩

theorem pairwise_sortedLinks (reverse : Assoc String (List (String × String))) (a : String) :
    (sortedLinks reverse a).Pairwise fun p q => p.1 ≤ q.1 := by
  refine (List.pairwise_insertionSort (fun p q : String × String => toLex p ≤ toLex q) _).imp ?_
  intro p q hle
  rcases Prod.Lex.toLex_le_toLex.mp hle with hlt | ⟨heq, -⟩
  · exact hlt.le
  · exact heq.le

/-- A dependent is a stored item. -/
theorem HasDependent.mem_keys {d : Assoc String ConfigItem} {a b : String}
    (h : HasDependent d a b) : b ∈ Assoc.keys d := by
  obtain ⟨ci, hci, -⟩ := h
  exact Assoc.mem_keys_of_get? hci

end

/-! ### The search -/

section

variable {env : Env} {dir : CmdbDir} {ciId : String} {maxDepth maxNodes : ℤ} {fuel : ℕ}
  {g : ImpactGraph}

/-- The search of an impact graph. -/
def impactSearch (cis : List ConfigItem) (fuel : ℕ) (ciId : String) (maxDepth maxNodes : ℤ) :
    Option (Breadth String String) :=
  (Breadth.initial ciId).run (sortedLinks (reverseLinks (byIdentifier cis))) maxDepth.toNat
    maxNodes.toNat fuel

/-- The graph of a search that has ended. -/
theorem impactGraph_eq_graph_iff {cis : List ConfigItem} (hcis : dir.listCis env = .ok cis) :
    impactGraph env dir fuel ciId maxDepth maxNodes = .ok (some (.graph g)) ↔
      0 ≤ maxDepth ∧ 1 ≤ maxNodes ∧ ciId ∈ Assoc.keys (byIdentifier cis) ∧
      ∃ s, impactSearch cis fuel ciId maxDepth maxNodes = some s ∧
        ∃ dependents, s.nodes.mapM (impactNode (byIdentifier cis)) = .ok dependents ∧
          g = ⟨ciId, dependents, s.cycles, s.truncated, maxDepth, maxNodes⟩ := by
  unfold impactGraph impactSearch
  by_cases hbounds : maxDepth < 0 ∨ maxNodes < 1
  · rw [if_pos hbounds]
    refine iff_of_false (fun h => nomatch h) ?_
    rintro ⟨hdepth, hnodes, -⟩
    omega
  · rw [if_neg hbounds, hcis]
    by_cases hmem : ciId ∈ Assoc.keys (byIdentifier cis)
    · have hstored : ¬ciId ∉ Assoc.keys (byIdentifier cis) := not_not.mpr hmem
      simp only [ok_bind, if_neg hstored]
      have hdepth : 0 ≤ maxDepth := by omega
      have hnodes : 1 ≤ maxNodes := by omega
      cases (Breadth.initial ciId).run (sortedLinks (reverseLinks (byIdentifier cis)))
          maxDepth.toNat maxNodes.toNat fuel with
      | none => simp
      | some s =>
        simp only [bind_eq_ok, pure_eq_ok, Option.some.injEq, ImpactResult.graph.injEq,
          exists_eq_left', hdepth, hnodes, hmem, true_and]
        constructor
        · rintro ⟨dependents, hdependents, rfl⟩
          exact ⟨dependents, hdependents, rfl⟩
        · rintro ⟨dependents, hdependents, rfl⟩
          exact ⟨dependents, hdependents, rfl⟩
    · simp only [ok_bind, if_pos hmem]
      refine iff_of_false ?_ fun h => hmem h.2.2.1
      intro h
      cases h

/-- The entry of a point keeps its name and its depth. -/
theorem impactNode_eq_ok {cis : Assoc String ConfigItem} {f : Found String String} {d : ImpactNode}
    (h : impactNode cis f = .ok d) : d.id = f.node ∧ d.depth = f.depth := by
  unfold impactNode at h
  split at h
  · rw [← pure_eq_ok.mp h]
    exact ⟨rfl, rfl⟩
  · cases h

theorem ids_of_mapM {cis : Assoc String ConfigItem} {nodes : List (Found String String)}
    {dependents : List ImpactNode} (h : nodes.mapM (impactNode cis) = .ok dependents) :
    dependents.map ImpactNode.id = nodes.map Found.node := by
  have hall := mapM_eq_ok_iff.mp h
  induction hall with
  | nil => rfl
  | cons hd hrest ih =>
    rw [List.map_cons, List.map_cons, (impactNode_eq_ok hd).1, ih (mapM_eq_ok_iff.mpr hrest)]

section

variable {cis : List ConfigItem} {s : Breadth String String}
  (hsearch : impactSearch cis fuel ciId maxDepth maxNodes = some s)

include hsearch

theorem impactSearch_isSound :
    s.IsSound (sortedLinks (reverseLinks (byIdentifier cis))) ciId :=
  Breadth.run_isSound (pairwise_sortedLinks _) hsearch

/-- A dependent that was found is not the item, and is stored. -/
theorem impactSearch_found {f : Found String String} (hf : f ∈ s.nodes) :
    f.node ≠ ciId ∧ IsDist (HasDependent (byIdentifier cis)) ciId f.depth f.node ∧
      f.node ∈ Assoc.keys (byIdentifier cis) := by
  have hsound := impactSearch_isSound hsearch
  have hne : f.node ≠ ciId := by
    have hnodup := hsound.nodup
    rw [hsound.seen] at hnodup
    rintro heq
    exact (List.nodup_cons.mp hnodup).1 (heq ▸ List.mem_map_of_mem hf)
  have hdist := hsound.dist f hf
  rw [linked_eq] at hdist
  refine ⟨hne, hdist, ?_⟩
  obtain ⟨p, ⟨hp, -⟩, -⟩ := hdist
  obtain ⟨q, c, -, -, hstep⟩ := hp.split hne
  exact hstep.mem_keys

theorem exists_dependents : ∃ dependents,
    s.nodes.mapM (impactNode (byIdentifier cis)) = .ok dependents := by
  refine exists_mapM_ok fun f hf => ?_
  obtain ⟨ci, hci⟩ := Option.isSome_iff_exists.mp
    ((Assoc.get?_isSome_iff _ _).mpr (impactSearch_found hsearch hf).2.2)
  exact ⟨_, by rw [impactNode, hci]; rfl⟩

/-- **The dependents of a search** are exact. -/
theorem isExact_of_search {dependents : List ImpactNode}
    (h : s.nodes.mapM (impactNode (byIdentifier cis)) = .ok dependents) :
    (⟨ciId, dependents, s.cycles, s.truncated, maxDepth, maxNodes⟩ : ImpactGraph).IsExact
      (byIdentifier cis) ciId := by
  have hsound := impactSearch_isSound hsearch
  have hids := ids_of_mapM h
  have hseen := hsound.nodup
  rw [hsound.seen, ← hids] at hseen
  refine ⟨(List.nodup_cons.mp hseen).2, fun d hd => ?_, fun hcomplete a => ?_⟩
  · obtain ⟨f, hf, hnode⟩ := (mem_mapM_iff h d).mp hd
    obtain ⟨hid, hdepth⟩ := impactNode_eq_ok hnode
    obtain ⟨hne, hdist, -⟩ := impactSearch_found hsearch hf
    rw [hid, hdepth]
    exact ⟨hne, exists_isDist_iff.mp ⟨_, hdist⟩, hdist⟩
  · have hreach := Breadth.mem_seen_iff (pairwise_sortedLinks _) hsearch hcomplete (a := a)
    rw [linked_eq, hsound.seen, ← hids, List.mem_cons] at hreach
    constructor
    · intro ha
      exact ⟨fun heq => (List.nodup_cons.mp hseen).1 (heq ▸ ha), hreach.mp (.inr ha)⟩
    · rintro ⟨hne, ha⟩
      exact (hreach.mpr ha).resolve_left hne

end

/-- The loop ends within as many turns as there are items, and one. -/
theorem exists_impactSearch (cis : List ConfigItem)
    (hstored : ciId ∈ Assoc.keys (byIdentifier cis)) (maxDepth maxNodes : ℤ) :
    ∃ s, impactSearch cis ((byIdentifier cis).length + 1) ciId maxDepth maxNodes = some s := by
  have hpoints : ∀ a, ∀ p ∈ sortedLinks (reverseLinks (byIdentifier cis)) a,
      p.1 ∈ Assoc.keys (byIdentifier cis) := by
    intro a p hp
    have hlink : Linked (sortedLinks (reverseLinks (byIdentifier cis))) a p.1 := ⟨p.2, hp⟩
    rw [linked_eq] at hlink
    exact hlink.mem_keys
  refine Breadth.exists_run hpoints ?_
  have hlt := List.length_filter_lt_length_iff_exists
    (p := fun a => decide (a ∉ [ciId])) (l := Assoc.keys (byIdentifier cis))
  have hlen : (Assoc.keys (byIdentifier cis)).length = (byIdentifier cis).length :=
    List.length_map _
  have hmissing := hlt.mpr ⟨ciId, hstored, by simp⟩
  show missing _ [ciId] + 1 < _
  rw [missing]
  omega

/-- **The impact graph is exact reachability**: the loop ends on every store, and where the item is
stored and the bounds are allowed, what it returns is exact. -/
theorem impactGraph_exact (env : Env) (dir : CmdbDir) (ciId : String) (maxDepth maxNodes : ℤ) :
    ∃ r : Except PyError ImpactResult, (∃ turns, ∀ fuel, turns ≤ fuel →
        impactGraph env dir fuel ciId maxDepth maxNodes = r.map some) ∧
      ∀ cis, dir.listCis env = .ok cis →
        (∀ g, r = .ok (.graph g) → g.IsExact (byIdentifier cis) ciId) ∧
        (0 ≤ maxDepth → 1 ≤ maxNodes → ciId ∈ Assoc.keys (byIdentifier cis) →
          ∃ g, r = .ok (.graph g)) := by
  by_cases hbounds : maxDepth < 0 ∨ maxNodes < 1
  · refine ⟨.error (.value "max_depth must be >= 0 and max_nodes must be >= 1"),
      ⟨0, fun fuel _ => ?_⟩, fun cis _ => ⟨fun g hg => (nomatch hg), fun hdepth hnodes => ?_⟩⟩
    · rw [impactGraph, if_pos hbounds]
      rfl
    · omega
  cases hlist : dir.listCis env with
  | error e =>
    refine ⟨.error e, ⟨0, fun fuel _ => ?_⟩, fun cis hcis => nomatch hcis⟩
    rw [impactGraph, if_neg hbounds, hlist]
    rfl
  | ok cis =>
    by_cases hstored : ciId ∈ Assoc.keys (byIdentifier cis)
    · obtain ⟨s, hs⟩ := exists_impactSearch cis hstored maxDepth maxNodes
      obtain ⟨dependents, hdependents⟩ := exists_dependents hs
      refine ⟨.ok (.graph ⟨ciId, dependents, s.cycles, s.truncated, maxDepth, maxNodes⟩),
        ⟨(byIdentifier cis).length + 1, fun fuel hfuel => ?_⟩, fun cis' hcis' => ?_⟩
      · refine (impactGraph_eq_graph_iff hlist).mpr ⟨by omega, by omega, hstored, s, ?_,
          dependents, hdependents, rfl⟩
        exact Breadth.run_mono hs hfuel
      · cases hcis'
        refine ⟨fun g hg => ?_, fun _ _ _ => ⟨_, rfl⟩⟩
        cases hg
        exact isExact_of_search hs hdependents
    · refine ⟨.ok (.notFound ciId), ⟨0, fun fuel _ => ?_⟩, fun cis' hcis' => ?_⟩
      · rw [impactGraph, if_neg hbounds, hlist]
        simp only [ok_bind, if_pos hstored]
        rfl
      · cases hcis'
        exact ⟨fun g hg => (nomatch hg), fun _ _ hmem => absurd hmem hstored⟩

/-! ### Cycles -/

/-- No cycle among the item and what depends on it. -/
def IsAcyclicFrom (cis : Assoc String ConfigItem) (ciId : String) : Prop :=
  ∀ a, ReflTransGen (HasDependent cis) ciId a → ¬TransGen (HasDependent cis) a a

/-- The reported cycles say whether there are any, and each of them ends in one. -/
structure ImpactGraph.FindsCycles (g : ImpactGraph) (cis : Assoc String ConfigItem)
    (ciId : String) : Prop where
  found : g.cycles = [] ↔ IsAcyclicFrom cis ciId
  real : ∀ c ∈ g.cycles, EndsInCycle (HasDependent cis) c

theorem not_isAcyclicFrom_of_loopsBack {cis : Assoc String ConfigItem}
    (h : LoopsBack (HasDependent cis) ciId) : ¬IsAcyclicFrom cis ciId := by
  obtain ⟨p, a, b, hp, hlink, hmem⟩ := h
  obtain ⟨hreach, hcycle⟩ := hp.1.1.cycle hlink hmem
  exact fun hacyclic => hacyclic b hreach hcycle

/-- The cycles that a search reports. -/
theorem cycles_ne_nil_iff {cis : List ConfigItem} {s : Breadth String String}
    (hsearch : impactSearch cis fuel ciId maxDepth maxNodes = some s)
    (hcomplete : s.truncated = false) :
    s.cycles ≠ [] ↔ LoopsBack (HasDependent (byIdentifier cis)) ciId := by
  have hmem := fun c => Breadth.mem_cycles_iff (pairwise_sortedLinks _) hsearch hcomplete (c := c)
  simp only [linked_eq] at hmem
  constructor
  · intro hne
    obtain ⟨c, hc⟩ := List.exists_mem_of_ne_nil _ hne
    obtain ⟨p, a, b, -, hp, hlink, hb⟩ := (hmem c).mp hc
    exact ⟨p, a, b, hp, hlink, hb⟩
  · rintro ⟨p, a, b, hp, hlink, hb⟩
    exact List.ne_nil_of_mem ((hmem _).mpr ⟨p, a, b, rfl, hp, hlink, hb⟩)

/-- **Cycles are found** exactly when there is none, or some dependency goes back to the leading
path of the item that it starts from. -/
theorem findsCycles_iff {cis : List ConfigItem} (hcis : dir.listCis env = .ok cis)
    (h : impactGraph env dir fuel ciId maxDepth maxNodes = .ok (some (.graph g)))
    (hcomplete : g.truncated = false) :
    g.FindsCycles (byIdentifier cis) ciId ↔ IsAcyclicFrom (byIdentifier cis) ciId ∨
      LoopsBack (HasDependent (byIdentifier cis)) ciId := by
  obtain ⟨-, -, -, s, hsearch, dependents, -, rfl⟩ := (impactGraph_eq_graph_iff hcis).mp h
  have hiff := cycles_ne_nil_iff hsearch hcomplete
  constructor
  · rintro ⟨hfound, -⟩
    by_cases hnil : s.cycles = []
    · exact .inl (hfound.mp hnil)
    · exact .inr (hiff.mp hnil)
  · intro hcondition
    refine ⟨⟨fun hnil => ?_, fun hacyclic => ?_⟩, fun c hc => ?_⟩
    · exact hcondition.resolve_right fun hloops => hiff.mpr hloops hnil
    · by_contra hne
      exact not_isAcyclicFrom_of_loopsBack (hiff.mp hne) hacyclic
    · have hsound := (impactSearch_isSound hsearch).cycles c hc
      rw [linked_eq] at hsound
      obtain ⟨p, a, b, rfl, hp, hlink, hmem⟩ := hsound
      exact hp.1.1.endsInCycle hlink hmem

end

/-! ### Two siblings that depend on each other -/

/-- A directory of items with their dependencies. -/
def dependencyDir (items : List (String × List String)) : CmdbDir :=
  items.map fun p => (p.1,
    { core := some (encodeUtf8 ((Json.obj [("id", .str p.1)]).dumps zeroFloats .compact))
      logs := [("w.jsonl", encodeUtf8 (p.2.flatMap fun target =>
        (Json.obj [("action", .str "relate"), ("target", .str target)]).dumps zeroFloats .compact ++
          ['\n']))]
      nodup := List.nodup_singleton _ })

/-- The item `b` reads as a dependent of `a`. -/
def readsDependent (dir : CmdbDir) (a b : String) : Bool :=
  match dir.listCis unaryMachine with
  | .ok cis => (Assoc.get? (byIdentifier cis) b).any fun ci =>
      ci.relationships.any fun rel => rel.isDependency && rel.target == a
  | .error _ => false

theorem hasDependent_of_reads {dir : CmdbDir} {cis : List ConfigItem}
    (hcis : dir.listCis unaryMachine = .ok cis) {a b : String}
    (h : readsDependent dir a b = true) : HasDependent (byIdentifier cis) a b := by
  unfold readsDependent at h
  rw [hcis] at h
  obtain ⟨ci, hci, hany⟩ := (Option.any_eq_true _ _).mp h
  obtain ⟨rel, hrel, hdep⟩ := List.any_eq_true.mp hany
  rw [Bool.and_eq_true, beq_iff_eq] at hdep
  exact ⟨ci, hci, rel, hrel, hdep.1, hdep.2⟩

/-- Two items that depend on a third one and on each other. -/
def siblingDir : CmdbDir := dependencyDir [("a", ["s", "b"]), ("b", ["s", "a"]), ("s", [])]

theorem siblings_run :
    (impactGraph unaryMachine siblingDir 4 "s" = .ok (some (.graph
      ⟨"s", [⟨"a", "", "service", "depends_on", 1⟩, ⟨"b", "", "service", "depends_on", 1⟩], [],
        false, 8, 1000⟩))) ∧
    readsDependent siblingDir "s" "a" = true ∧ readsDependent siblingDir "a" "b" = true ∧
    readsDependent siblingDir "b" "a" = true := by
  decide +kernel

/-- The cycle of the siblings is not reported. -/
theorem siblings_cycle_missed : ∃ cis g, siblingDir.listCis unaryMachine = .ok cis ∧
    impactGraph unaryMachine siblingDir 4 "s" = .ok (some (.graph g)) ∧ g.truncated = false ∧
    ¬g.FindsCycles (byIdentifier cis) "s" := by
  obtain ⟨hgraph, hsa, hab, hba⟩ := siblings_run
  cases hcis : siblingDir.listCis unaryMachine with
  | error e =>
    rw [impactGraph, hcis] at hgraph
    cases hgraph
  | ok cis =>
    refine ⟨cis, _, rfl, hgraph, rfl, fun hfinds => ?_⟩
    have ha := hasDependent_of_reads hcis hsa
    have hcycle := TransGen.tail (.single (hasDependent_of_reads hcis hab))
      (hasDependent_of_reads hcis hba)
    exact hfinds.found.mp rfl "a" (.single ha) hcycle

/-- Two items that depend on each other, the first of them on a third one as well. -/
def loopDir : CmdbDir := dependencyDir [("a", ["s", "b"]), ("b", ["a"]), ("s", [])]

/-- The impact graph of the third item. -/
def loopGraph : ImpactGraph :=
  ⟨"s", [⟨"a", "", "service", "depends_on", 1⟩, ⟨"b", "", "service", "depends_on", 2⟩],
    [["s", "a", "b", "a"]], false, 8, 1000⟩

/-- The cycle of the two is reported. -/
theorem findsCycles_iff_loop : ∃ cis, loopDir.listCis unaryMachine = .ok cis ∧
    impactGraph unaryMachine loopDir 4 "s" = .ok (some (.graph loopGraph)) ∧
    ¬IsAcyclicFrom (byIdentifier cis) "s" ∧ loopGraph.FindsCycles (byIdentifier cis) "s" := by
  have hgraph : impactGraph unaryMachine loopDir 4 "s" = .ok (some (.graph loopGraph)) := by
    decide +kernel
  cases hcis : loopDir.listCis unaryMachine with
  | error e =>
    rw [impactGraph, hcis] at hgraph
    cases hgraph
  | ok cis =>
    obtain ⟨-, -, -, s, hsearch, dependents, -, hg⟩ := (impactGraph_eq_graph_iff hcis).mp hgraph
    have hcycles : s.cycles = [["s", "a", "b", "a"]] := (congrArg ImpactGraph.cycles hg).symm
    have htruncated : s.truncated = false := (congrArg ImpactGraph.truncated hg).symm
    have hloops := (cycles_ne_nil_iff hsearch htruncated).mp (hcycles ▸ List.cons_ne_nil _ _)
    exact ⟨cis, rfl, hgraph, not_isAcyclicFrom_of_loopsBack hloops,
      (findsCycles_iff hcis hgraph rfl).mpr (.inr hloops)⟩

end SkCoord.Cmdb
