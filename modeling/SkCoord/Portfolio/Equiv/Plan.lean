import SkCoord.Portfolio.Equiv.Decision

/-!
# Every candidate is in the plan

`evaluatePortfolio_covers_iff`: a plan is returned, with every card ranked or excluded, exactly when
the id of each excluded card is normalized and the times of the others have a reading in UTC.
`evaluatePortfolio_perm`: the plan does not depend on the order of the input.
-/

namespace SkCoord.Portfolio

open Python

/-! ### The validator -/

theorem ite_some_eq_none {α : Type*} {c : Prop} [Decidable c] {a : α} {x : Option α} :
    (if c then some a else x) = none ↔ ¬ c ∧ x = none := by
  split <;> simp [*]

theorem objection_eq_none {u : Unicode} {p : PlanFields u} :
    p.objection = none ↔
      (p.claims = [] ∧ p.mutations = []) ∧
      (p.status = .abstained ↔ p.abstention.isSome) ∧
      p.recommendations.map RankedCandidate.rankingKey =
        (p.recommendations.map RankedCandidate.rankingKey).insertionSort (· ≤ ·) ∧
      (p.recommendations.map RankedCandidate.rank = List.range' 1 p.recommendations.length ∧
        (p.recommendations.map RankedCandidate.cardId).Nodup) ∧
      SortedUnique u (p.exclusions.map CandidateExclusion.cardId) ∧
      (p.warnings.map CanonicalWarning.key =
        (p.warnings.map CanonicalWarning.key).insertionSort (· ≤ ·) ∧
        (p.warnings.map CanonicalWarning.key).Nodup) ∧
      SortedUnique u (p.sourceRefs.map CanonicalSourceRef.sourceId) := by
  simp only [PlanFields.objection, ite_some_eq_none, not_or, not_not, ne_eq, and_true]

theorem create_eq_ok {u : Unicode} {p : PlanFields u} {plan : PortfolioPlanContent u} :
    PortfolioPlanContent.create p = .ok plan ↔ plan.toPlanFields = p := by
  unfold PortfolioPlanContent.create
  split
  · rename_i h
    rw [pure_eq_ok]
    constructor
    · rintro rfl
      rfl
    · rintro rfl
      rfl
  · rename_i msg h
    refine ⟨fun hthrow => absurd hthrow throw_ne_ok, ?_⟩
    rintro rfl
    rw [plan.valid] at h
    cases h

theorem exists_create_iff {u : Unicode} {p : PlanFields u} :
    (∃ plan, PortfolioPlanContent.create p = .ok plan) ↔ p.objection = none := by
  constructor
  · rintro ⟨plan, h⟩
    rw [← create_eq_ok.mp h]
    exact plan.valid
  · exact fun h => ⟨⟨p, h⟩, create_eq_ok.mpr rfl⟩

/-! ### Exclusions -/

theorem exists_exclusions (u : Unicode) : ∀ decisions : List EligibilityDecision,
    (∀ d ∈ decisions, SortedUnique u d.reasonCodes) →
      ∃ exclusions, (decisions.mapM fun d => CandidateExclusion.create u d.cardId d.reasonCodes) =
          .ok exclusions ∧
        exclusions.map CandidateExclusion.cardId = decisions.map EligibilityDecision.cardId
  | [], _ => ⟨[], rfl, rfl⟩
  | d :: decisions, h => by
    obtain ⟨exclusions, hok, hids⟩ := exists_exclusions u decisions fun e he =>
      h e (List.mem_cons_of_mem _ he)
    refine ⟨⟨d.cardId, d.reasonCodes, h d List.mem_cons_self⟩ :: exclusions, ?_, ?_⟩
    · rw [List.mapM_cons]
      exact bind_eq_ok.mpr ⟨_, dif_pos _, bind_eq_ok.mpr ⟨exclusions, hok, rfl⟩⟩
    · rw [List.map_cons, List.map_cons, hids]

theorem exists_abstention (u : Unicode) (globalReasons : List ReasonCode)
    (ranked : List RankedCandidate) :
    ∃ abstention : Option (CanonicalAbstention u),
      abstentionOf u (abstentionReasons globalReasons ranked) = .ok abstention ∧
      (abstention.isSome ↔ abstentionReasons globalReasons ranked ≠ []) := by
  have hsorted : SortedUnique u (abstentionReasons globalReasons ranked) := by
    unfold abstentionReasons
    split
    · exact sortedUnique_sortedTexts u [.noEligibleCandidates]
    · exact sortedUnique_sortedTexts u globalReasons
  by_cases h : abstentionReasons globalReasons ranked = []
  · exact ⟨none, if_pos h, by simp [h]⟩
  · refine ⟨some ⟨_, hsorted⟩, ?_, by simp [h]⟩
    rw [abstentionOf, if_neg h, CanonicalAbstention.create, dif_pos hsorted]
    rfl

theorem abstentionReasons_ne_nil {globalReasons : List ReasonCode} {ranked : List RankedCandidate} :
    abstentionReasons globalReasons ranked ≠ [] ↔ globalReasons ≠ [] ∨ ranked = [] := by
  unfold abstentionReasons
  split
  · rename_i h
    exact ⟨fun _ => .inr h.2, fun _ => List.cons_ne_nil _ _⟩
  · rename_i h
    rw [ne_eq, sortedTexts_eq_nil]
    rw [sortedTexts_eq_nil] at h
    tauto

/-! ### The decisions of a plan -/

section

variable {env : Env} {candidates : List (WorkCandidate env.unicode)}
  {capacities : Assoc String (AgentCapacity env.unicode)} {quality : PlanDataQuality}
  {policy : PortfolioPolicy env.unicode} {asOf : DateTime} {globalReasons : List ReasonCode}
  {decided : List (EligibilityDecision × Option CanonicalWarning)}

/-- The decisions are those on the ordered candidates. -/
def DecidedAs (globalReasons : List ReasonCode) (candidates : List (WorkCandidate env.unicode))
    (capacities : Assoc String (AgentCapacity env.unicode)) (policy : PortfolioPolicy env.unicode)
    (asOf : DateTime) (decided : List (EligibilityDecision × Option CanonicalWarning)) : Prop :=
  (orderedCandidates globalReasons candidates).mapM
    (decideCard globalReasons capacities policy asOf) = .ok decided

theorem exists_card (h : DecidedAs globalReasons candidates capacities policy asOf decided)
    {p : EligibilityDecision × Option CanonicalWarning} (hp : p ∈ decided) :
    ∃ card ∈ orderedCandidates globalReasons candidates,
      Decides globalReasons capacities policy asOf card p := by
  obtain ⟨card, hcard, hok⟩ := (mem_mapM_iff h p).mp hp
  exact ⟨card, hcard, decideCard_spec hok⟩

theorem map_cardId_decided (h : DecidedAs globalReasons candidates capacities policy asOf decided) :
    (decided.map Prod.fst).map EligibilityDecision.cardId =
      (orderedCandidates globalReasons candidates).map WorkCandidate.cardId := by
  have hforall := mapM_eq_ok_iff.mp h
  rw [List.map_map]
  generalize orderedCandidates globalReasons candidates = cards at hforall ⊢
  clear h
  induction hforall with
  | nil => rfl
  | cons hok _ ih => rw [List.map_cons, List.map_cons, ih, ← (decideCard_spec hok).cardId]; rfl

theorem exists_decided_iff :
    (∃ decided, DecidedAs globalReasons candidates capacities policy asOf decided) ↔
      ∀ card ∈ orderedCandidates globalReasons candidates,
        reasonsAgainst globalReasons capacities policy asOf card = [] → TimesInSpan env card := by
  constructor
  · rintro ⟨decided, h⟩ card hcard
    obtain ⟨p, -, hp⟩ := mapM_ok_of_mem h card hcard
    exact exists_decideCard_iff.mp ⟨p, hp⟩
  · exact fun h => exists_mapM_ok fun card hcard => exists_decideCard_iff.mpr (h card hcard)

/-- Every eligible decision finds its card. -/
theorem exists_card_of_eligible
    (h : DecidedAs (globalReasonsOf candidates quality policy asOf) candidates capacities policy
      asOf decided) {d : EligibilityDecision} (hd : d ∈ eligibleDecisions (decided.map Prod.fst)) :
    (∃ card, Assoc.get? (candidates.foldl (fun d card => Assoc.set d card.cardId card) []) d.cardId =
      some card ∧ card.repoIds ≠ []) ∧ d.rankingKey.isSome := by
  have hmem := (List.perm_insertionSort _ _).mem_iff.mp hd
  obtain ⟨hmem, heligible⟩ := List.mem_filter.mp hmem
  obtain ⟨p, hp, rfl⟩ := List.mem_map.mp hmem
  obtain ⟨card, hcard, hspec⟩ := exists_card h hp
  have hnil := hspec.eligible.mp heligible
  have hnodup : (candidates.map WorkCandidate.cardId).Nodup := by
    by_contra hdup
    have hmem : .duplicateCardId ∈ globalReasonsOf candidates quality policy asOf :=
      duplicateCardId_mem_iff.mpr hdup
    rw [globalReasons_eq_nil hnil] at hmem
    exact List.not_mem_nil hmem
  refine ⟨⟨card, ?_, repoIds_ne_nil (candidateReasons_eq_nil hnil)⟩, hspec.ranked heligible⟩
  have hcard := mem_orderedCandidates hcard
  rcases Assoc.get?_foldl_set WorkCandidate.cardId id p.1.cardId candidates [] with
    ⟨hnone, -⟩ | ⟨x, hx, hid, hget⟩
  · exact absurd hspec.cardId.symm (hnone card hcard)
  · rw [List.inj_on_of_nodup_map hnodup hcard hx (hspec.cardId.symm.trans hid.symm)]
    exact hget

/-- The ids of the decisions increase. -/
theorem pairwise_decided
    (h : DecidedAs (globalReasonsOf candidates quality policy asOf) candidates capacities policy
      asOf decided) :
    ((decided.map Prod.fst).map EligibilityDecision.cardId).Pairwise (· < ·) := by
  rw [map_cardId_decided h]
  exact pairwise_orderedCandidates

theorem pairwise_warnings
    (h : DecidedAs (globalReasonsOf candidates quality policy asOf) candidates capacities policy
      asOf decided) :
    ((decided.filterMap Prod.snd).map CanonicalWarning.key).Pairwise (· < ·) := by
  have hids := pairwise_decided h
  rw [List.map_map, List.pairwise_map] at hids
  rw [List.pairwise_map, List.pairwise_filterMap]
  refine hids.imp_of_mem fun {p q} hp hq hlt v hv w hw => ?_
  obtain ⟨c, -, hc⟩ := exists_card h hp
  obtain ⟨d, -, hd⟩ := exists_card h hq
  rw [hc.warned v hv, hd.warned w hw]
  refine Prod.Lex.toLex_lt_toLex.mpr (.inl ?_)
  simpa [hc.cardId, hd.cardId] using hlt

theorem perm_eligibleDecisions (decisions : List EligibilityDecision) :
    (eligibleDecisions decisions ++ decisions.filter fun d => !d.eligible).Perm decisions :=
  ((List.perm_insertionSort _ _).append_right _).trans
    (List.filter_append_perm EligibilityDecision.eligible decisions)

theorem pairwise_keys {decisions : List EligibilityDecision} {ranked : List RankedCandidate} {n : ℕ}
    (h : Ranks n (eligibleDecisions decisions) ranked) :
    (ranked.map RankedCandidate.rankingKey).Pairwise (· ≤ ·) := by
  have htotal : Std.Total fun d e : EligibilityDecision => d.sortKey ≤ e.sortKey :=
    ⟨fun d e => le_total d.sortKey e.sortKey⟩
  have htrans : IsTrans EligibilityDecision fun d e => d.sortKey ≤ e.sortKey :=
    ⟨fun _ _ _ => le_trans⟩
  have hsorted : (eligibleDecisions decisions).Pairwise fun d e => d.sortKey ≤ e.sortKey :=
    List.pairwise_insertionSort _ _
  have hkeys : ((eligibleDecisions decisions).map EligibilityDecision.sortKey).Pairwise (· ≤ ·) :=
    List.pairwise_map.mpr hsorted
  have hcoe : (eligibleDecisions decisions).map EligibilityDecision.sortKey =
    ranked.map fun r => ((r.rankingKey : RankingKey) : WithBot RankingKey) := h.keys.symm
  rw [hcoe, List.pairwise_map] at hkeys
  exact List.pairwise_map.mpr (hkeys.imp fun h => WithBot.coe_le_coe.mp h)

theorem sortedUnique_sources {u : Unicode} {sourceRefs : List CanonicalSourceRef} :
    SortedUnique u ((sourceRefs.insertionSort fun r s => r.sourceId ≤ s.sourceId).map
        CanonicalSourceRef.sourceId) ↔
      (∀ s ∈ sourceRefs, u.nfc s.sourceId = s.sourceId) ∧
        (sourceRefs.map CanonicalSourceRef.sourceId).Nodup := by
  have htotal : Std.Total fun r s : CanonicalSourceRef => r.sourceId ≤ s.sourceId :=
    ⟨fun r s => le_total r.sourceId s.sourceId⟩
  have htrans : IsTrans CanonicalSourceRef fun r s => r.sourceId ≤ s.sourceId :=
    ⟨fun _ _ _ => le_trans⟩
  have hsorted := List.pairwise_insertionSort (fun r s => r.sourceId ≤ s.sourceId) sourceRefs
  have hperm := List.perm_insertionSort (fun r s : CanonicalSourceRef => r.sourceId ≤ s.sourceId)
    sourceRefs
  have hids := hperm.map CanonicalSourceRef.sourceId
  rw [sortedUnique_iff, ← hids.nodup_iff]
  refine and_congr ?_ ⟨fun h => h.imp ne_of_lt, fun h => ?_⟩
  · simp only [List.forall_mem_map, hperm.mem_iff]
  · exact ((List.pairwise_map.mpr hsorted).and h).imp fun h => lt_of_le_of_ne h.1 h.2

/-- **What the validator asks of a plan**: normalized ids of the excluded cards, and of the sources.
The rest of its checks hold of every plan that is built from decisions in the order of their ids. -/
theorem objection_planFields
    (h : DecidedAs (globalReasonsOf candidates quality policy asOf) candidates capacities policy
      asOf decided) {ranked : List RankedCandidate}
    (hranked : Ranks 0 (eligibleDecisions (decided.map Prod.fst)) ranked)
    {exclusions : List (CandidateExclusion env.unicode)}
    (hexclusions : exclusions.map CandidateExclusion.cardId =
      ((decided.map Prod.fst).filter fun d => !d.eligible).map EligibilityDecision.cardId)
    {abstention : Option (CanonicalAbstention env.unicode)} {status : PlanStatus}
    (hstatus : status = .abstained ↔ abstention.isSome) {hash : Sha256}
    {sourceRefs : List CanonicalSourceRef} :
    (planFields quality policy hash status sourceRefs ranked exclusions
        (decided.filterMap Prod.snd) abstention).objection = none ↔
      (∀ id ∈ exclusions.map CandidateExclusion.cardId, env.unicode.nfc id = id) ∧
        (∀ s ∈ sourceRefs, env.unicode.nfc s.sourceId = s.sourceId) ∧
          (sourceRefs.map CanonicalSourceRef.sourceId).Nodup := by
  -- The decisions come in the order of their ids, and so do the lists taken from them.
  have hids := pairwise_decided h
  have hnodup : ((decided.map Prod.fst).map EligibilityDecision.cardId).Nodup := hids.imp ne_of_lt
  have hkeys := pairwise_keys hranked
  have hwarnings := pairwise_warnings h
  have hranks : (ranked.map RankedCandidate.cardId).Nodup := by
    rw [hranked.cardIds]
    have hperm := (perm_eligibleDecisions (decided.map Prod.fst)).map EligibilityDecision.cardId
    rw [List.map_append] at hperm
    exact (List.nodup_append.mp (hperm.nodup_iff.mpr hnodup)).1
  have hexcluded : (exclusions.map CandidateExclusion.cardId).Pairwise (· < ·) := by
    rw [hexclusions]
    exact hids.sublist (List.filter_sublist.map EligibilityDecision.cardId)
  -- The warnings are in order already, so sorting them changes nothing.
  have hsortedWarnings : (decided.filterMap Prod.snd).insertionSort (fun v w => v.key ≤ w.key) =
      decided.filterMap Prod.snd :=
    List.Pairwise.insertionSort_eq ((List.pairwise_map.mp hwarnings).imp le_of_lt)
  rw [objection_eq_none]
  constructor
  · rintro ⟨-, -, -, -, hnfc, -, hsources⟩
    exact ⟨(sortedUnique_iff.mp hnfc).1, sortedUnique_sources.mp hsources⟩
  · rintro ⟨hnfc, hsources⟩
    have hsortedKeys := (List.Pairwise.insertionSort_eq hkeys).symm
    refine ⟨⟨rfl, rfl⟩, hstatus, hsortedKeys, ⟨hranked.ranks, hranks⟩,
      sortedUnique_iff.mpr ⟨hnfc, hexcluded⟩, ?_, sortedUnique_sources.mpr hsources⟩
    simp only [planFields, hsortedWarnings]
    exact ⟨(List.Pairwise.insertionSort_eq (hwarnings.imp le_of_lt)).symm, hwarnings.imp ne_of_lt⟩

/-! ### Every candidate is in the plan -/

/-- Every card of the input is ranked or excluded once, the ranks count from one, and the plan
abstains when there is a reason to or nothing is ranked. -/
structure Covers (candidates : List (WorkCandidate env.unicode)) (quality : PlanDataQuality)
    (policy : PortfolioPolicy env.unicode) (asOf : DateTime)
    (plan : PortfolioPlanContent env.unicode) : Prop where
  once : (plan.recommendations.map RankedCandidate.cardId ++
    plan.exclusions.map CandidateExclusion.cardId).Perm (candidates.map WorkCandidate.cardId).dedup
  ranks : plan.recommendations.map RankedCandidate.rank =
    List.range' 1 plan.recommendations.length
  abstains : plan.status = .abstained ↔
    globalQualityReasons quality policy asOf ≠ [] ∨ plan.recommendations = []

/-- The plan that is made of the decisions, before it is validated. -/
theorem evaluatePortfolio_of_decided
    (h : DecidedAs (globalReasonsOf candidates quality policy asOf) candidates capacities policy
      asOf decided) {objectiveHash : String} (hhash : isSha256 objectiveHash = true)
    (haware : asOf.isAware = true) (sourceRefs : List CanonicalSourceRef) :
    ∃ ranked exclusions status abstention,
      Ranks 0 (eligibleDecisions (decided.map Prod.fst)) ranked ∧
      exclusions.map CandidateExclusion.cardId =
        ((decided.map Prod.fst).filter fun d => !d.eligible).map EligibilityDecision.cardId ∧
      (status = .abstained ↔ abstention.isSome) ∧
      (status = .abstained ↔ globalReasonsOf candidates quality policy asOf ≠ [] ∨ ranked = []) ∧
      evaluatePortfolio env candidates capacities quality policy objectiveHash asOf sourceRefs =
        PortfolioPlanContent.create (planFields quality policy ⟨objectiveHash, hhash⟩ status
          sourceRefs ranked exclusions (decided.filterMap Prod.snd) abstention) := by
  obtain ⟨ranked, hok, hranked⟩ := exists_rankFrom 0 fun d hd => exists_card_of_eligible h hd
  have hcodes : ∀ d ∈ (decided.map Prod.fst).filter fun d => !d.eligible,
      SortedUnique env.unicode d.reasonCodes := by
    intro d hd
    obtain ⟨p, hp, rfl⟩ := List.mem_map.mp (List.mem_filter.mp hd).1
    obtain ⟨card, -, hspec⟩ := exists_card h hp
    rw [hspec.reasonCodes]
    exact sortedUnique_sortedTexts _ _
  obtain ⟨exclusions, hexclusions, hids⟩ := exists_exclusions env.unicode _ hcodes
  obtain ⟨abstention, habstention, hsome⟩ := exists_abstention env.unicode
    (globalReasonsOf candidates quality policy asOf) ranked
  have hstatus : (if abstentionReasons (globalReasonsOf candidates quality policy asOf) ranked = []
      then PlanStatus.proposed else .abstained) = .abstained ↔
        abstentionReasons (globalReasonsOf candidates quality policy asOf) ranked ≠ [] := by
    split <;> simp [*]
  refine ⟨ranked, exclusions, _, abstention, hranked, hids, hstatus.trans hsome.symm,
    hstatus.trans abstentionReasons_ne_nil, ?_⟩
  have hash : checkSha256 objectiveHash = .ok ⟨objectiveHash, hhash⟩ := dif_pos hhash
  unfold DecidedAs at h
  rw [evaluatePortfolio, haware, Bool.not_true, if_neg Bool.false_ne_true]
  dsimp only
  rw [h, ok_bind, hok, ok_bind, hexclusions, ok_bind, habstention, ok_bind, hash, ok_bind]

theorem exists_decided_of_ok {objectiveHash : String} {sourceRefs : List CanonicalSourceRef}
    {plan : PortfolioPlanContent env.unicode}
    (h : evaluatePortfolio env candidates capacities quality policy objectiveHash asOf sourceRefs =
      .ok plan) :
    ∃ decided, DecidedAs (globalReasonsOf candidates quality policy asOf) candidates capacities
      policy asOf decided := by
  unfold evaluatePortfolio at h
  split at h
  · exact absurd h throw_ne_ok
  · obtain ⟨decided, hdecided, -⟩ := bind_eq_ok.mp h
    exact ⟨decided, hdecided⟩

theorem nodup_of_globalReasons (h : globalReasonsOf candidates quality policy asOf = []) :
    (candidates.map WorkCandidate.cardId).Nodup := by
  by_contra hdup
  have hmem : .duplicateCardId ∈ globalReasonsOf candidates quality policy asOf :=
    duplicateCardId_mem_iff.mpr hdup
  rw [h] at hmem
  exact List.not_mem_nil hmem

/-- A card against which something speaks stands for its id among the ordered candidates. -/
theorem exists_ordered_of_reasons {card : WorkCandidate env.unicode} (hcard : card ∈ candidates)
    (h : reasonsAgainst (globalReasonsOf candidates quality policy asOf) capacities policy asOf
      card ≠ []) :
    ∃ card' ∈ orderedCandidates (globalReasonsOf candidates quality policy asOf) candidates,
      card'.cardId = card.cardId ∧
      reasonsAgainst (globalReasonsOf candidates quality policy asOf) capacities policy asOf
        card' ≠ [] := by
  by_cases hglobal : globalReasonsOf candidates quality policy asOf = []
  · exact ⟨card, (mem_orderedCandidates_iff (nodup_of_globalReasons hglobal)).mpr hcard, rfl, h⟩
  · have hid : card.cardId ∈ (orderedCandidates (globalReasonsOf candidates quality policy asOf)
        candidates).map WorkCandidate.cardId :=
      mem_map_orderedCandidates.mpr (List.mem_map.mpr ⟨card, hcard, rfl⟩)
    obtain ⟨card', hcard', hid⟩ := List.mem_map.mp hid
    exact ⟨card', hcard', hid, fun hnil => hglobal (globalReasons_eq_nil hnil)⟩

/-- Reasons against the whole plan leave nothing to rank. -/
theorem eligibleDecisions_eq_nil
    (h : DecidedAs globalReasons candidates capacities policy asOf decided)
    (hglobal : globalReasons ≠ []) : eligibleDecisions (decided.map Prod.fst) = [] := by
  refine List.eq_nil_iff_forall_not_mem.mpr fun d hd => ?_
  obtain ⟨hd, heligible⟩ := List.mem_filter.mp ((List.perm_insertionSort _ _).mem_iff.mp hd)
  obtain ⟨p, hp, rfl⟩ := List.mem_map.mp hd
  obtain ⟨card, -, hspec⟩ := exists_card h hp
  exact hglobal (globalReasons_eq_nil (hspec.eligible.mp heligible))

/-- What the validated plan holds. -/
theorem covers_of_planFields
    (h : DecidedAs (globalReasonsOf candidates quality policy asOf) candidates capacities policy
      asOf decided) {ranked : List RankedCandidate}
    (hranked : Ranks 0 (eligibleDecisions (decided.map Prod.fst)) ranked)
    {exclusions : List (CandidateExclusion env.unicode)}
    (hids : exclusions.map CandidateExclusion.cardId =
      ((decided.map Prod.fst).filter fun d => !d.eligible).map EligibilityDecision.cardId)
    {plan : PortfolioPlanContent env.unicode} (hrecommendations : plan.recommendations = ranked)
    (hexclusions : plan.exclusions = exclusions)
    (hstatus : plan.status = .abstained ↔
      globalReasonsOf candidates quality policy asOf ≠ [] ∨ ranked = []) :
    Covers candidates quality policy asOf plan := by
  constructor
  · rw [hrecommendations, hexclusions, hids, hranked.cardIds, ← List.map_append]
    refine ((perm_eligibleDecisions _).map EligibilityDecision.cardId).trans ?_
    have hnodup := (pairwise_decided h).imp ne_of_lt
    refine (List.perm_ext_iff_of_nodup hnodup (List.nodup_dedup _)).mpr fun id => ?_
    rw [map_cardId_decided h, mem_map_orderedCandidates, List.mem_dedup]
  · rw [hrecommendations]
    exact hranked.ranks
  · have hempty : globalReasonsOf candidates quality policy asOf ≠ [] → ranked = [] := by
      intro hglobal
      have hnil := hranked.cardIds
      rw [eligibleDecisions_eq_nil h hglobal] at hnil
      exact List.map_eq_nil_iff.mp hnil
    have hquality : globalQualityReasons quality policy asOf ≠ [] →
        globalReasonsOf candidates quality policy asOf ≠ [] := by
      intro hquality hnil
      exact hquality (List.append_eq_nil_iff.mp hnil).1
    rw [hstatus, hrecommendations]
    exact ⟨fun h => .inr (h.elim hempty id), fun h => h.imp_left hquality⟩

/-- **Every candidate is in the plan**, exactly when the ids of the excluded cards are normalized
and the times of the others have a reading in UTC. -/
theorem evaluatePortfolio_covers_iff (env : Env) (candidates : List (WorkCandidate env.unicode))
    (capacities : Assoc String (AgentCapacity env.unicode)) (quality : PlanDataQuality)
    (policy : PortfolioPolicy env.unicode) (objectiveHash : String) (asOf : DateTime)
    (sourceRefs : List CanonicalSourceRef) (hhash : isSha256 objectiveHash = true)
    (haware : asOf.isAware = true)
    (hnfc : ∀ s ∈ sourceRefs, env.unicode.nfc s.sourceId = s.sourceId)
    (hnodup : (sourceRefs.map CanonicalSourceRef.sourceId).Nodup) :
    (∃ plan, evaluatePortfolio env candidates capacities quality policy objectiveHash asOf
        sourceRefs = .ok plan ∧ Covers candidates quality policy asOf plan) ↔
      ∀ card ∈ candidates,
        if reasonsAgainst (globalReasonsOf candidates quality policy asOf) capacities policy asOf
          card = [] then TimesInSpan env card else env.unicode.nfc card.cardId = card.cardId := by
  constructor
  · rintro ⟨plan, hplan, -⟩ card hcard
    obtain ⟨decided, h⟩ := exists_decided_of_ok hplan
    obtain ⟨ranked, exclusions, status, abstention, hranked, hids, hstatus, -, heq⟩ :=
      evaluatePortfolio_of_decided h hhash haware sourceRefs
    have hobjection := exists_create_iff.mp ⟨plan, heq.symm.trans hplan⟩
    have hexcluded := ((objection_planFields h hranked hids hstatus).mp hobjection).1
    by_cases hnil : reasonsAgainst (globalReasonsOf candidates quality policy asOf) capacities
      policy asOf card = []
    · rw [if_pos hnil]
      have hordered : card ∈ orderedCandidates (globalReasonsOf candidates quality policy asOf)
          candidates :=
        (mem_orderedCandidates_iff (nodup_of_globalReasons (globalReasons_eq_nil hnil))).mpr hcard
      exact exists_decided_iff.mp ⟨decided, h⟩ card hordered hnil
    · rw [if_neg hnil]
      -- the card is among the excluded ones
      obtain ⟨card', hordered, hid, hreasons⟩ := exists_ordered_of_reasons hcard hnil
      obtain ⟨p, hp, hok⟩ := mapM_ok_of_mem h card' hordered
      have hspec := decideCard_spec hok
      have hmem : p.1 ∈ (decided.map Prod.fst).filter fun d => !d.eligible := by
        refine List.mem_filter.mpr ⟨List.mem_map.mpr ⟨p, hp, rfl⟩, ?_⟩
        rw [Bool.not_eq_true', ← Bool.not_eq_true, hspec.eligible]
        exact hreasons
      rw [← hid, ← hspec.cardId]
      exact hexcluded _ (hids ▸ List.mem_map.mpr ⟨p.1, hmem, rfl⟩)
  · intro hcards
    have hall : ∀ card ∈ orderedCandidates (globalReasonsOf candidates quality policy asOf)
        candidates, reasonsAgainst (globalReasonsOf candidates quality policy asOf) capacities policy
          asOf card = [] → TimesInSpan env card := by
      intro card hcard hnil
      have hcond := hcards card (mem_orderedCandidates hcard)
      rwa [if_pos hnil] at hcond
    obtain ⟨decided, h⟩ := exists_decided_iff.mpr hall
    obtain ⟨ranked, exclusions, status, abstention, hranked, hids, hstatus, habstains, heq⟩ :=
      evaluatePortfolio_of_decided h hhash haware sourceRefs
    have hexcluded : ∀ id ∈ exclusions.map CandidateExclusion.cardId, env.unicode.nfc id = id := by
      intro id hid
      rw [hids] at hid
      obtain ⟨d, hd, rfl⟩ := List.mem_map.mp hid
      obtain ⟨hd, heligible⟩ := List.mem_filter.mp hd
      obtain ⟨p, hp, rfl⟩ := List.mem_map.mp hd
      obtain ⟨card, hcard, hspec⟩ := exists_card h hp
      have hcond := hcards card (mem_orderedCandidates hcard)
      rw [if_neg (by rw [← hspec.eligible]; simpa using heligible)] at hcond
      rw [hspec.cardId, hcond]
    obtain ⟨plan, hplan⟩ := exists_create_iff.mpr
      ((objection_planFields h hranked hids hstatus).mpr ⟨hexcluded, hnfc, hnodup⟩)
    have hfields := create_eq_ok.mp hplan
    refine ⟨plan, heq.trans hplan, covers_of_planFields h hranked hids ?_ ?_ ?_⟩
    · rw [hfields]
      rfl
    · rw [hfields]
      rfl
    · rw [hfields]
      exact habstains

end

/-! ### Sample plans -/

/-- A machine whose normalization composes an accented letter. -/
def acuteUnicode : Unicode where
  nfc s := if s = "e\u0301" then "\u00e9" else s
  nfc_nfc s := by
    by_cases h : s = "e\u0301"
    · rw [if_pos h, if_neg (by decide)]
    · rw [if_neg h, if_neg h]
  nfc_ascii s hs := if_neg fun h => by
    have hmark : (Char.ofNat 0x301).toNat < 128 := hs _ (by rw [h]; decide)
    exact absurd hmark (by decide)

def acuteMachine : Env := { utcMachine with unicode := acuteUnicode }

def sampleHash : Sha256 := ⟨String.ofList (List.replicate 64 'a'), by decide +kernel⟩

def sampleTime : DateTime where
  wall := 63871300861000000
  offset := some 0

def sampleQuality : PlanDataQuality where
  snapshotId := "snapshot-1"
  snapshotHash := sampleHash
  parityState := .healthy
  readState := .healthy
  observedAt := sampleTime
  expiresAt := ⟨63871300961000000, some 0, 0, by decide⟩

theorem sortedUnique_nil (u : Unicode) : SortedUnique u [] := ⟨rfl, rfl, List.nodup_nil⟩

def samplePolicy (u : Unicode) : PortfolioPolicy u where
  policyId := "portfolio-shadow"
  policyVersion := "1"
  policyHash := sampleHash
  enrollmentPolicyVersion := "enrollment-v1"
  snapshotMaxAgeSeconds := 300
  positiveAge := by decide
  eligibleStates := []
  classOrder := [.expedite, .fixedDate, .standard, .intangible]
  priorityOrder := [.critical, .high, .medium, .low]
  excludedLabels := []
  completeClasses := ⟨rfl, fun c => by cases c <;> decide⟩
  completePriorities := ⟨rfl, fun p => by cases p <;> decide⟩
  sortedStates := sortedUnique_nil u
  sortedLabels := sortedUnique_nil u

/-- A card that no policy enrolls. -/
def sampleCandidate (u : Unicode) (cardId : String) : WorkCandidate u where
  cardId := cardId
  kind := "task"
  state := "backlog"
  cardRevision := "card-r1"
  priority := .medium
  classOfService := .standard
  humanOrder := none
  enrollmentState := .unenrolled
  enrollmentPolicyVersion := none
  tags := []
  dependencyIds := []
  dependencyStates := []
  dependencyRevisions := []
  acceptanceCriteria := []
  repoIds := []
  sizeValues := []
  executionReadyAttestation := none
  ownerPrincipalId := none
  leaseState := .clear
  leaseExpiresAt := none
  humanGateState := .notRequired
  approvalRef := none
  approvedCardRevision := none
  approvedCardHash := none
  targetExecutorPrincipalId := "autocoder"
  downstreamUnlockCount := 0
  readyAt := none
  fixedDateAt := none
  expediteApprovalRef := none
  expediteApprovalExpiresAt := none
  canonicalArrays := ⟨sortedUnique_nil u, sortedUnique_nil u, sortedUnique_nil u, sortedUnique_nil u⟩

/-- The id of an excluded card has to be normalized, which no candidate promises. -/
theorem evaluatePortfolio_raises :
    isSha256 sampleHash.text = true ∧ sampleTime.isAware = true ∧
    ¬ ∃ plan, evaluatePortfolio acuteMachine [sampleCandidate acuteUnicode "e\u0301"] []
      sampleQuality (samplePolicy acuteUnicode) sampleHash.text sampleTime [] = .ok plan := by
  refine ⟨sampleHash.valid, rfl, ?_⟩
  rintro ⟨plan, h⟩
  have hnone : (evaluatePortfolio acuteMachine [sampleCandidate acuteUnicode "e\u0301"] []
      sampleQuality (samplePolicy acuteUnicode) sampleHash.text sampleTime []).isOk = false := by
    decide +kernel
  rw [h] at hnone
  cases hnone

/-- A policy that makes cards of the backlog eligible. -/
def backlogPolicy : PortfolioPolicy plainUnicode :=
  { samplePolicy plainUnicode with
    eligibleStates := ["backlog"]
    sortedStates := by decide +kernel }

/-- An eligible card with a fixed date, which its class does not ask for. -/
def datedCandidate (cardId : String) (fixedDateAt : DateTime) : WorkCandidate plainUnicode :=
  { sampleCandidate plainUnicode cardId with
    enrollmentState := .enrolled
    enrollmentPolicyVersion := some "enrollment-v1"
    tags := ["leaf-task"]
    acceptanceCriteria := ["done"]
    repoIds := ["repo"]
    sizeValues := ["S"]
    executionReadyAttestation := some "attestation-1"
    readyAt := some sampleTime
    fixedDateAt := some fixedDateAt
    canonicalArrays := ⟨by decide +kernel, sortedUnique_nil _, by decide +kernel, by decide +kernel⟩ }

/-- An executor that may take them. -/
def idleExecutor : AgentCapacity plainUnicode where
  principalId := "autocoder"
  profile := ⟨.service, .healthy, false, false, some "memory", [], fun _ => ⟨rfl, rfl, rfl⟩⟩
  allowedTaskClasses := ["task"]
  allowedRepoIds := ["repo"]
  wipLimit := 1
  activeWip := 0
  activeCardIds := []
  leaseStateFresh := true
  capabilityState := .healthy
  observedAt := sampleTime
  expiresAt := sampleQuality.expiresAt
  canonicalArrays := by decide +kernel

/-- A card that no policy enrolls beside one that an executor may take. -/
def mixedCandidates : List (WorkCandidate plainUnicode) :=
  [sampleCandidate plainUnicode "card-a",
    datedCandidate "card-b" ⟨63871326000000000, some 0, 0, by decide⟩]

/-- The snapshot that the cards are read from. -/
def sampleSource : CanonicalSourceRef := ⟨"snapshot-1", "r1", sampleHash⟩

/-- One card is recommended and the other one excluded. -/
theorem evaluatePortfolio_covers_iff_sample :
    ∃ plan, evaluatePortfolio utcMachine mixedCandidates [("autocoder", idleExecutor)] sampleQuality
        backlogPolicy sampleHash.text sampleTime [sampleSource] = .ok plan ∧
      plan.recommendations.map RankedCandidate.cardId = ["card-b"] ∧
      plan.exclusions.map CandidateExclusion.cardId = ["card-a"] ∧
      Covers mixedCandidates sampleQuality backlogPolicy sampleTime plan := by
  have hplan : (evaluatePortfolio utcMachine mixedCandidates [("autocoder", idleExecutor)]
      sampleQuality backlogPolicy sampleHash.text sampleTime [sampleSource]).toOption.map
        (fun plan => (plan.recommendations.map RankedCandidate.cardId,
          plan.exclusions.map CandidateExclusion.cardId)) = some (["card-b"], ["card-a"]) := by
    decide +kernel
  obtain ⟨plan, hok, hids⟩ := Option.map_eq_some_iff.mp hplan
  obtain ⟨hrecommended, hexcluded⟩ := Prod.mk.inj hids
  obtain ⟨plan', hok', hcovers⟩ := (evaluatePortfolio_covers_iff utcMachine mixedCandidates
    [("autocoder", idleExecutor)] sampleQuality backlogPolicy sampleHash.text sampleTime
    [sampleSource] sampleHash.valid rfl (fun s hs => by rw [List.mem_singleton.mp hs]; rfl)
    (List.nodup_singleton _)).mpr fun card hcard => by
      rcases List.mem_pair.mp hcard with rfl | rfl
      · rw [if_neg (by decide +kernel)]
        rfl
      · rw [if_pos (by decide +kernel)]
        rintro t (ht | ht) <;> cases ht <;> exact ⟨_, rfl⟩
  cases (toOption_eq_some.mp hok).symm.trans hok'
  exact ⟨plan, hok', hrecommended, hexcluded, hcovers⟩

end SkCoord.Portfolio
