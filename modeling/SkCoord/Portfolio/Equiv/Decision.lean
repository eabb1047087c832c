import SkCoord.Portfolio.Equiv.Ordered

/-!
# The decision on a card

`decideCard_spec`: the decision names its card, is favourable exactly when no reason speaks against
the card, and then has a key.  `exists_decideCard_iff`: a decision is reached unless a time of a
favoured card has no reading in UTC.
-/

namespace SkCoord.Portfolio

open Python

variable {env : Env} {globalReasons : List ReasonCode}
  {capacities : Assoc String (AgentCapacity env.unicode)} {policy : PortfolioPolicy env.unicode}
  {asOf : DateTime} {card : WorkCandidate env.unicode}

/-- The reasons against a card of the plan. -/
def reasonsAgainst (globalReasons : List ReasonCode)
    (capacities : Assoc String (AgentCapacity env.unicode)) (policy : PortfolioPolicy env.unicode)
    (asOf : DateTime) (card : WorkCandidate env.unicode) : List ReasonCode :=
  if globalReasons ≠ [] then globalReasons
  else candidateReasons card (Assoc.get? capacities card.targetExecutorPrincipalId) policy asOf

/-- The times that the key of a card reads have a reading in UTC. -/
def TimesInSpan (env : Env) (card : WorkCandidate env.unicode) : Prop :=
  ∀ t, card.readyAt = some t ∨ card.fixedDateAt = some t → ∃ utc, toUtc env t = .ok utc

/-! ### What no reason means -/

theorem exists_readyAt {capacity : Option (AgentCapacity env.unicode)}
    (h : candidateReasons card capacity policy asOf = []) : ∃ t, card.readyAt = some t := by
  simp only [candidateReasons, cardReasons, List.append_eq_nil_iff, flag_eq_nil] at h
  have haware : ¬ (!aware card.readyAt) = true := h.1.1.2
  cases hready : card.readyAt with
  | none => rw [hready] at haware; exact absurd rfl haware
  | some t => exact ⟨t, rfl⟩

theorem repoIds_ne_nil {capacity : Option (AgentCapacity env.unicode)}
    (h : candidateReasons card capacity policy asOf = []) : card.repoIds ≠ [] := by
  simp only [candidateReasons, cardReasons, List.append_eq_nil_iff, flag_eq_nil, not_not] at h
  have hlength : card.repoIds.length = 1 := h.1.1.1.1.1.1.1.1.1.1.2
  intro hnil
  rw [hnil] at hlength
  cases hlength

theorem globalReasons_eq_nil (h : reasonsAgainst globalReasons capacities policy asOf card = []) :
    globalReasons = [] := by
  by_contra hne
  rw [reasonsAgainst, if_pos hne] at h
  exact hne h

theorem candidateReasons_eq_nil
    (h : reasonsAgainst globalReasons capacities policy asOf card = []) :
    candidateReasons card (Assoc.get? capacities card.targetExecutorPrincipalId) policy asOf = [] := by
  rwa [reasonsAgainst, if_neg (not_not.mpr (globalReasons_eq_nil h))] at h

/-! ### Keys -/

theorem exists_rankingKey_iff {readyAt : DateTime} (hready : card.readyAt = some readyAt) :
    (∃ key, rankingKey card readyAt policy asOf = .ok key) ↔ TimesInSpan env card := by
  constructor
  · rintro ⟨key, h⟩ t ht
    obtain ⟨fixedDate, hfixed, h⟩ := bind_eq_ok.mp h
    obtain ⟨ready, hutc, -⟩ := bind_eq_ok.mp h
    rcases ht with ht | ht
    · cases hready.symm.trans ht
      exact ⟨ready, hutc⟩
    · rw [ht, fixedDateText] at hfixed
      obtain ⟨utc, hutc, -⟩ := bind_eq_ok.mp hfixed
      exact ⟨utc, hutc⟩
  · intro h
    obtain ⟨ready, hutc⟩ := h readyAt (.inl hready)
    have hfixed : ∃ text, fixedDateText env card.fixedDateAt = .ok text := by
      cases ht : card.fixedDateAt with
      | none => exact ⟨_, rfl⟩
      | some t =>
        obtain ⟨utc, hutc⟩ := h t (.inr ht)
        exact ⟨utc.isoUtc, bind_eq_ok.mpr ⟨utc, hutc, rfl⟩⟩
    obtain ⟨text, htext⟩ := hfixed
    exact ⟨_, bind_eq_ok.mpr ⟨text, htext, bind_eq_ok.mpr ⟨ready, hutc, rfl⟩⟩⟩

/-! ### Decisions -/

/-- What a decision with its warning says about a card. -/
structure Decides (globalReasons : List ReasonCode)
    (capacities : Assoc String (AgentCapacity env.unicode)) (policy : PortfolioPolicy env.unicode)
    (asOf : DateTime) (card : WorkCandidate env.unicode)
    (p : EligibilityDecision × Option CanonicalWarning) : Prop where
  cardId : p.1.cardId = card.cardId
  eligible : p.1.eligible = true ↔ reasonsAgainst globalReasons capacities policy asOf card = []
  reasonCodes : p.1.reasonCodes = sortedTexts (reasonsAgainst globalReasons capacities policy asOf card)
  ranked : p.1.eligible = true → p.1.rankingKey.isSome
  warned : ∀ w, p.2 = some w → w = ⟨"expedite_downgraded", some card.cardId⟩

theorem decideCard_spec {p : EligibilityDecision × Option CanonicalWarning}
    (h : decideCard globalReasons capacities policy asOf card = .ok p) :
    Decides globalReasons capacities policy asOf card p := by
  unfold decideCard at h
  by_cases hglobal : globalReasons ≠ []
  · rw [if_pos hglobal, pure_eq_ok] at h
    subst h
    have hreasons : reasonsAgainst globalReasons capacities policy asOf card = globalReasons :=
      if_pos hglobal
    exact ⟨rfl, by simp [hreasons, hglobal], by rw [hreasons], by simp, by simp⟩
  · rw [if_neg hglobal] at h
    have hreasons : reasonsAgainst globalReasons capacities policy asOf card =
      candidateReasons card (Assoc.get? capacities card.targetExecutorPrincipalId) policy asOf :=
      if_neg hglobal
    rw [candidateDecision] at h
    -- the reasons stay closed
    generalize candidateReasons card (Assoc.get? capacities card.targetExecutorPrincipalId) policy
      asOf = reasons at h hreasons
    obtain ⟨key, hkey, h⟩ := bind_eq_ok.mp h
    rw [← pure_eq_ok.mp h]
    refine ⟨rfl, by rw [hreasons, decide_eq_true_iff], by rw [hreasons], fun heligible => ?_,
      fun w hw => ?_⟩
    · have hnil : reasons = [] := of_decide_eq_true heligible
      unfold decisionKey at hkey
      split at hkey
      · rename_i hready
        rw [hnil] at hreasons
        obtain ⟨t, ht⟩ := exists_readyAt (candidateReasons_eq_nil hreasons)
        rw [hready] at ht
        cases ht
      · rw [if_pos hnil] at hkey
        obtain ⟨k, -, hkey⟩ := bind_eq_ok.mp hkey
        rw [← pure_eq_ok.mp hkey]
        rfl
    · dsimp only at hw
      split at hw
      · exact (Option.some.inj hw).symm
      · cases hw

theorem exists_decideCard_iff :
    (∃ p, decideCard globalReasons capacities policy asOf card = .ok p) ↔
      (reasonsAgainst globalReasons capacities policy asOf card = [] → TimesInSpan env card) := by
  by_cases hnil : reasonsAgainst globalReasons capacities policy asOf card = []
  · have hglobal := globalReasons_eq_nil hnil
    have hcandidate := candidateReasons_eq_nil hnil
    obtain ⟨t, ht⟩ := exists_readyAt hcandidate
    have hkeys : (∃ key, rankingKey card t policy asOf = .ok key) ↔ TimesInSpan env card :=
      exists_rankingKey_iff ht
    rw [decideCard, if_neg (not_not.mpr hglobal), ← hkeys]
    simp only [candidateDecision, decisionKey, ht, if_pos hcandidate]
    constructor
    · rintro ⟨p, h⟩ -
      obtain ⟨key, hkey, -⟩ := bind_eq_ok.mp h
      obtain ⟨k, hk, -⟩ := bind_eq_ok.mp hkey
      exact ⟨k, hk⟩
    · intro h
      obtain ⟨k, hk⟩ := h hnil
      exact ⟨_, bind_eq_ok.mpr ⟨some k, bind_eq_ok.mpr ⟨k, hk, rfl⟩, rfl⟩⟩
  · refine ⟨fun _ h => absurd h hnil, fun _ => ?_⟩
    unfold decideCard
    by_cases hglobal : globalReasons ≠ []
    · rw [if_pos hglobal]
      exact ⟨_, rfl⟩
    · rw [if_neg hglobal]
      rw [reasonsAgainst, if_neg hglobal] at hnil
      have hkey : decisionKey card (candidateReasons card
          (Assoc.get? capacities card.targetExecutorPrincipalId) policy asOf) policy asOf =
            .ok none := by
        unfold decisionKey
        split
        · rfl
        · rw [if_neg hnil]
          rfl
      exact ⟨_, bind_eq_ok.mpr ⟨none, hkey, rfl⟩⟩

/-! ### Ranks -/

variable {u : Unicode} {cardsById : Assoc String (WorkCandidate u)}

/-- Ranked candidates are the decisions in their order. -/
structure Ranks (n : ℕ) (decisions : List EligibilityDecision) (ranked : List RankedCandidate) :
    Prop where
  cardIds : ranked.map RankedCandidate.cardId = decisions.map EligibilityDecision.cardId
  ranks : ranked.map RankedCandidate.rank = List.range' (n + 1) ranked.length
  keys : ranked.map (fun r => some r.rankingKey) = decisions.map EligibilityDecision.rankingKey

theorem exists_rankFrom : ∀ {decisions : List EligibilityDecision} (n : ℕ),
    (∀ d ∈ decisions, (∃ card, Assoc.get? cardsById d.cardId = some card ∧ card.repoIds ≠ []) ∧
      d.rankingKey.isSome) →
      ∃ ranked, rankFrom cardsById n decisions = .ok ranked ∧ Ranks n decisions ranked
  | [], n, _ => ⟨[], rfl, rfl, rfl, rfl⟩
  | d :: decisions, n, h => by
    obtain ⟨⟨card, hcard, hrepo⟩, hkey⟩ := h d List.mem_cons_self
    obtain ⟨key, hkey⟩ := Option.isSome_iff_exists.mp hkey
    obtain ⟨repoId, repoIds, hrepo⟩ := List.exists_cons_of_ne_nil hrepo
    obtain ⟨ranked, hranked, hspec⟩ := exists_rankFrom (n + 1) fun e he =>
      h e (List.mem_cons_of_mem _ he)
    refine ⟨⟨d.cardId, n + 1, repoId, card.targetExecutorPrincipalId, d.normalizedClass, key,
      n.succ_pos⟩ :: ranked, ?_, ?_, ?_, ?_⟩
    · rw [rankFrom, hcard, hkey]
      dsimp only
      rw [hrepo]
      exact bind_eq_ok.mpr ⟨ranked, hranked, rfl⟩
    · rw [List.map_cons, List.map_cons, hspec.cardIds]
    · rw [List.map_cons, hspec.ranks, List.length_cons, List.range'_succ]
    · rw [List.map_cons, List.map_cons, hspec.keys, hkey]

end SkCoord.Portfolio
