import SkCoord.Portfolio.Equiv.Plan

/-!
# The plan does not depend on the order of the input

`evaluatePortfolio_perm`: permuted candidates and sources lead to plans with one hash, or to none.
-/

namespace SkCoord.Portfolio

open Python

variable {env : Env} {candidates candidates' : List (WorkCandidate env.unicode)}
  {capacities : Assoc String (AgentCapacity env.unicode)} {quality : PlanDataQuality}
  {policy : PortfolioPolicy env.unicode} {objectiveHash : String} {asOf : DateTime}
  {sourceRefs sourceRefs' : List CanonicalSourceRef}

/-! ### Sorting by distinct keys -/

/-- Sorting by a key that is distinct on the elements forgets their order. -/
theorem insertionSort_eq_of_perm {α : Type*} (key : α → String) {l m : List α} (h : l.Perm m)
    (hl : (l.map key).Nodup) :
    (l.insertionSort fun x y => key x ≤ key y) = m.insertionSort fun x y => key x ≤ key y := by
  have htotal : Std.Total fun x y : α => key x ≤ key y := ⟨fun x y => le_total (key x) (key y)⟩
  have htrans : IsTrans α fun x y => key x ≤ key y := ⟨fun _ _ _ => le_trans⟩
  have hsorted : ∀ l : List α,
      (l.insertionSort fun x y => key x ≤ key y).Pairwise fun x y => key x ≤ key y :=
    List.pairwise_insertionSort _
  have hperm : (l.insertionSort fun x y => key x ≤ key y).Perm
      (m.insertionSort fun x y => key x ≤ key y) :=
    (List.perm_insertionSort _ l).trans (h.trans (List.perm_insertionSort _ m).symm)
  refine hperm.eq_of_pairwise ?_ (hsorted l) (hsorted m)
  intro x y hx hy hle hge
  have hx := (List.perm_insertionSort _ l).mem_iff.mp hx
  have hy := h.mem_iff.mpr ((List.perm_insertionSort _ m).mem_iff.mp hy)
  exact List.inj_on_of_nodup_map hl hx hy (le_antisymm hle hge)

/-! ### Sources -/

theorem nodup_sources_of_ok {plan : PortfolioPlanContent env.unicode}
    (h : evaluatePortfolio env candidates capacities quality policy objectiveHash asOf sourceRefs =
      .ok plan) : (sourceRefs.map CanonicalSourceRef.sourceId).Nodup := by
  unfold evaluatePortfolio at h
  split at h
  · exact absurd h throw_ne_ok
  · obtain ⟨decided, -, h⟩ := bind_eq_ok.mp h
    obtain ⟨ranked, -, h⟩ := bind_eq_ok.mp h
    obtain ⟨exclusions, -, h⟩ := bind_eq_ok.mp h
    obtain ⟨abstention, -, h⟩ := bind_eq_ok.mp h
    obtain ⟨hash, -, h⟩ := bind_eq_ok.mp h
    have hvalid := objection_eq_none.mp plan.valid
    rw [create_eq_ok.mp h] at hvalid
    exact (sortedUnique_sources.mp hvalid.2.2.2.2.2.2).2

theorem evaluatePortfolio_sources (h : sourceRefs.Perm sourceRefs')
    (hnodup : (sourceRefs.map CanonicalSourceRef.sourceId).Nodup) :
    evaluatePortfolio env candidates capacities quality policy objectiveHash asOf sourceRefs =
      evaluatePortfolio env candidates capacities quality policy objectiveHash asOf sourceRefs' := by
  have hfields : ∀ hash status ranked exclusions warnings abstention,
      planFields quality policy hash status sourceRefs ranked exclusions warnings abstention =
        planFields quality policy hash status sourceRefs' ranked exclusions warnings abstention := by
    intro hash status ranked exclusions warnings abstention
    unfold planFields
    rw [insertionSort_eq_of_perm CanonicalSourceRef.sourceId h hnodup]
  unfold evaluatePortfolio
  simp only [hfields]

/-! ### Candidates -/

theorem globalReasonsOf_perm (h : candidates.Perm candidates') :
    globalReasonsOf candidates quality policy asOf =
      globalReasonsOf candidates' quality policy asOf := by
  have hnodup := (h.map WorkCandidate.cardId).nodup_iff
  unfold globalReasonsOf flag
  simp only [hnodup]

theorem rankFrom_congr {u : Unicode} {d e : Assoc String (WorkCandidate u)}
    (h : ∀ id, Assoc.get? d id = Assoc.get? e id) : ∀ (n : ℕ) (decisions : List EligibilityDecision),
    rankFrom d n decisions = rankFrom e n decisions
  | _, [] => rfl
  | n, decision :: decisions => by
    unfold rankFrom
    rw [h, rankFrom_congr h (n + 1) decisions]

/-- Among distinct ids every card is found under its own. -/
theorem get?_cardsById_perm (h : candidates.Perm candidates')
    (hnodup : (candidates.map WorkCandidate.cardId).Nodup) (id : String) :
    Assoc.get? (candidates.foldl (fun d card => Assoc.set d card.cardId card) []) id =
      Assoc.get? (candidates'.foldl (fun d card => Assoc.set d card.cardId card) []) id := by
  rcases Assoc.get?_foldl_set WorkCandidate.cardId (fun card => card) id candidates [] with
    ⟨hnone, hget⟩ | ⟨x, hx, hid, hget⟩ <;>
  rcases Assoc.get?_foldl_set WorkCandidate.cardId (fun card => card) id candidates' [] with
    ⟨hnone', hget'⟩ | ⟨y, hy, hid', hget'⟩
  · exact hget.trans hget'.symm
  · exact absurd hid' (hnone y (h.mem_iff.mpr hy))
  · exact absurd hid (hnone' x (h.mem_iff.mp hx))
  · rw [hget, hget',
      List.inj_on_of_nodup_map hnodup hx (h.mem_iff.mpr hy) (hid.trans hid'.symm)]

theorem evaluatePortfolio_distinct (h : candidates.Perm candidates')
    (hnodup : (candidates.map WorkCandidate.cardId).Nodup) :
    evaluatePortfolio env candidates capacities quality policy objectiveHash asOf sourceRefs =
      evaluatePortfolio env candidates' capacities quality policy objectiveHash asOf sourceRefs := by
  have hordered : orderedCandidates (globalReasonsOf candidates quality policy asOf) candidates =
      orderedCandidates (globalReasonsOf candidates' quality policy asOf) candidates' := by
    have hnodup' := (h.map WorkCandidate.cardId).nodup_iff.mp hnodup
    unfold orderedCandidates
    rw [if_neg (by rw [duplicateCardId_mem_iff, not_not]; exact hnodup),
      if_neg (by rw [duplicateCardId_mem_iff, not_not]; exact hnodup')]
    exact insertionSort_eq_of_perm WorkCandidate.cardId h hnodup
  have hranks := rankFrom_congr (get?_cardsById_perm h hnodup) 0
  have hglobal : globalReasonsOf candidates quality policy asOf =
      globalReasonsOf candidates' quality policy asOf := globalReasonsOf_perm h
  rw [hglobal] at hordered
  unfold evaluatePortfolio
  simp only [hglobal, hordered, hranks]

/-! ### Duplicates -/

/-- The decision on a card when there is a reason against the whole plan. -/
def rejection {u : Unicode} (globalReasons : List ReasonCode) (card : WorkCandidate u) :
    EligibilityDecision :=
  ⟨card.cardId, false, sortedTexts globalReasons, card.classOfService, none⟩

theorem eligibleDecisions_rejection {u : Unicode} (globalReasons : List ReasonCode)
    (cards : List (WorkCandidate u)) : eligibleDecisions (cards.map (rejection globalReasons)) = [] := by
  have hfilter : (cards.map (rejection globalReasons)).filter EligibilityDecision.eligible = [] := by
    refine List.filter_eq_nil_iff.mpr fun d hd => ?_
    obtain ⟨card, -, rfl⟩ := List.mem_map.mp hd
    exact Bool.false_ne_true
  rw [eligibleDecisions, hfilter, List.insertionSort_nil]

theorem filter_rejection {u : Unicode} (globalReasons : List ReasonCode)
    (cards : List (WorkCandidate u)) :
    ((cards.map (rejection globalReasons)).filter fun d => !d.eligible) =
      cards.map (rejection globalReasons) := by
  refine List.filter_eq_self.mpr fun d hd => ?_
  obtain ⟨card, -, rfl⟩ := List.mem_map.mp hd
  rfl

/-- With a reason against the whole plan only the ids are read. -/
theorem evaluatePortfolio_of_globalReasons
    (h : globalReasonsOf candidates quality policy asOf ≠ []) (haware : asOf.isAware = true) :
    evaluatePortfolio env candidates capacities quality policy objectiveHash asOf sourceRefs = (do
      let exclusions ← ((orderedCandidates (globalReasonsOf candidates quality policy asOf)
        candidates).map WorkCandidate.cardId).mapM fun id => CandidateExclusion.create env.unicode id
          (sortedTexts (globalReasonsOf candidates quality policy asOf))
      let reasons := abstentionReasons (globalReasonsOf candidates quality policy asOf) []
      let abstention ← abstentionOf env.unicode reasons
      let objectiveHash ← checkSha256 objectiveHash
      let status := if reasons = [] then PlanStatus.proposed else .abstained
      PortfolioPlanContent.create (planFields quality policy objectiveHash status sourceRefs []
        exclusions [] abstention)) := by
  rw [evaluatePortfolio, haware, Bool.not_true, if_neg Bool.false_ne_true]
  dsimp only
  generalize globalReasonsOf candidates quality policy asOf = globalReasons at h ⊢
  have hdecide : ∀ card ∈ orderedCandidates globalReasons candidates,
      decideCard globalReasons capacities policy asOf card =
        .ok (rejection globalReasons card, none) := fun card _ => if_pos h
  rw [mapM_eq_map hdecide, ok_bind]
  generalize orderedCandidates globalReasons candidates = cards
  have hdecisions : (cards.map fun card => (rejection globalReasons card,
      (none : Option CanonicalWarning))).map Prod.fst = cards.map (rejection globalReasons) := by
    rw [List.map_map]
    rfl
  have hwarnings : (cards.map fun card => (rejection globalReasons card,
      (none : Option CanonicalWarning))).filterMap Prod.snd = [] := by
    rw [List.filterMap_map]
    exact List.filterMap_eq_nil_iff.mpr fun _ _ => rfl
  rw [hdecisions, hwarnings, eligibleDecisions_rejection, rankFrom]
  rw [show (pure [] : Except ContractError (List RankedCandidate)) = .ok [] from rfl, ok_bind,
    filter_rejection, List.mapM_map, List.mapM_map]
  rfl

theorem evaluatePortfolio_duplicates (h : candidates.Perm candidates')
    (hdup : ¬ (candidates.map WorkCandidate.cardId).Nodup) (haware : asOf.isAware = true) :
    evaluatePortfolio env candidates capacities quality policy objectiveHash asOf sourceRefs =
      evaluatePortfolio env candidates' capacities quality policy objectiveHash asOf sourceRefs := by
  have hglobal : globalReasonsOf candidates quality policy asOf =
      globalReasonsOf candidates' quality policy asOf := globalReasonsOf_perm h
  have hne : globalReasonsOf candidates quality policy asOf ≠ [] :=
    List.ne_nil_of_mem (duplicateCardId_mem_iff.mpr hdup)
  -- the ids are sorted, distinct and the same
  have hids : (orderedCandidates (globalReasonsOf candidates quality policy asOf) candidates).map
      WorkCandidate.cardId = (orderedCandidates (globalReasonsOf candidates' quality policy asOf)
        candidates').map WorkCandidate.cardId := by
    have hlt : ((orderedCandidates (globalReasonsOf candidates quality policy asOf) candidates).map
        WorkCandidate.cardId).Pairwise (· < ·) := pairwise_orderedCandidates
    have hlt' : ((orderedCandidates (globalReasonsOf candidates' quality policy asOf)
        candidates').map WorkCandidate.cardId).Pairwise (· < ·) := pairwise_orderedCandidates
    have hperm := (List.perm_ext_iff_of_nodup (hlt.imp ne_of_lt) (hlt'.imp ne_of_lt)).mpr
      fun id => mem_map_orderedCandidates.trans
        ((h.map WorkCandidate.cardId).mem_iff.trans mem_map_orderedCandidates.symm)
    exact hperm.eq_of_pairwise (fun _ _ _ _ hab hba => absurd hab (lt_asymm hba)) hlt hlt'
  rw [evaluatePortfolio_of_globalReasons hne haware,
    evaluatePortfolio_of_globalReasons (hglobal ▸ hne) haware, hids, hglobal]

/-- The candidates may be permuted. -/
theorem evaluatePortfolio_candidates (h : candidates.Perm candidates') :
    evaluatePortfolio env candidates capacities quality policy objectiveHash asOf sourceRefs =
      evaluatePortfolio env candidates' capacities quality policy objectiveHash asOf sourceRefs := by
  by_cases haware : asOf.isAware = true
  · by_cases hnodup : (candidates.map WorkCandidate.cardId).Nodup
    · exact evaluatePortfolio_distinct h hnodup
    · exact evaluatePortfolio_duplicates h hnodup haware
  · rw [evaluatePortfolio, evaluatePortfolio, if_pos (by simpa using haware),
      if_pos (by simpa using haware)]

/-- **The plan does not depend on the order of the input**: with permuted candidates and sources
both calls raise, or both return plans with one hash. -/
theorem evaluatePortfolio_perm (env : Env) (candidates candidates' : List (WorkCandidate env.unicode))
    (capacities : Assoc String (AgentCapacity env.unicode)) (quality : PlanDataQuality)
    (policy : PortfolioPolicy env.unicode) (objectiveHash : String) (asOf : DateTime)
    (sourceRefs sourceRefs' : List CanonicalSourceRef) (hcandidates : candidates.Perm candidates')
    (hsources : sourceRefs.Perm sourceRefs') :
    (∃ e e', evaluatePortfolio env candidates capacities quality policy objectiveHash asOf
          sourceRefs = .error e ∧
        evaluatePortfolio env candidates' capacities quality policy objectiveHash asOf
          sourceRefs' = .error e') ∨
      ∃ plan plan', evaluatePortfolio env candidates capacities quality policy objectiveHash asOf
          sourceRefs = .ok plan ∧
        evaluatePortfolio env candidates' capacities quality policy objectiveHash asOf
          sourceRefs' = .ok plan' ∧ plan.contentHash env = plan'.contentHash env := by
  rw [evaluatePortfolio_candidates hcandidates]
  by_cases hnodup : (sourceRefs.map CanonicalSourceRef.sourceId).Nodup
  · rw [evaluatePortfolio_sources hsources hnodup]
    cases evaluatePortfolio env candidates' capacities quality policy objectiveHash asOf
      sourceRefs' with
    | error e => exact .inl ⟨e, e, rfl, rfl⟩
    | ok plan => exact .inr ⟨plan, plan, rfl, rfl, rfl⟩
  · have hnodup' : ¬ (sourceRefs'.map CanonicalSourceRef.sourceId).Nodup := by
      rwa [← (hsources.map CanonicalSourceRef.sourceId).nodup_iff]
    refine .inl ?_
    cases hleft : evaluatePortfolio env candidates' capacities quality policy objectiveHash asOf
      sourceRefs with
    | ok plan => exact absurd (nodup_sources_of_ok hleft) hnodup
    | error e =>
      cases hright : evaluatePortfolio env candidates' capacities quality policy objectiveHash asOf
        sourceRefs' with
      | ok plan => exact absurd (nodup_sources_of_ok hright) hnodup'
      | error e' => exact ⟨e, e', rfl, rfl⟩

theorem evaluatePortfolio_perm_swap :
    (∃ e e', evaluatePortfolio utcMachine [sampleCandidate plainUnicode "card-b",
          sampleCandidate plainUnicode "card-a"] [] sampleQuality (samplePolicy plainUnicode)
          sampleHash.text sampleTime [] = .error e ∧
        evaluatePortfolio utcMachine [sampleCandidate plainUnicode "card-a",
          sampleCandidate plainUnicode "card-b"] [] sampleQuality (samplePolicy plainUnicode)
          sampleHash.text sampleTime [] = .error e') ∨
      ∃ plan plan', evaluatePortfolio utcMachine [sampleCandidate plainUnicode "card-b",
          sampleCandidate plainUnicode "card-a"] [] sampleQuality (samplePolicy plainUnicode)
          sampleHash.text sampleTime [] = .ok plan ∧
        evaluatePortfolio utcMachine [sampleCandidate plainUnicode "card-a",
          sampleCandidate plainUnicode "card-b"] [] sampleQuality (samplePolicy plainUnicode)
          sampleHash.text sampleTime [] = .ok plan' ∧
        plan.contentHash utcMachine = plan'.contentHash utcMachine :=
  evaluatePortfolio_perm utcMachine _ _ [] sampleQuality (samplePolicy plainUnicode)
    sampleHash.text sampleTime [] [] (List.Perm.swap _ _ _) (List.Perm.refl [])

end SkCoord.Portfolio
