import SkCoord.Portfolio.Equiv.DeclaredKey
import SkCoord.Portfolio.Equiv.Plan

/-!
# The recommendations are in the declared order

`ranking_iff`: on every host the recommendations of a plan are in the declared order, if and only if
on no host two cards of the plan clash.
-/

namespace SkCoord.Portfolio

open Python

variable {env : Env} {candidates : List (WorkCandidate env.unicode)}
  {capacities : Assoc String (AgentCapacity env.unicode)} {quality : PlanDataQuality}
  {policy : PortfolioPolicy env.unicode} {objectiveHash : String} {asOf : DateTime}
  {sourceRefs : List CanonicalSourceRef} {plan : PortfolioPlanContent env.unicode}

/-! ### Orders of the eligible cards -/

/-- A candidate against which nothing speaks. -/
def IsEligible (candidates : List (WorkCandidate env.unicode))
    (capacities : Assoc String (AgentCapacity env.unicode)) (quality : PlanDataQuality)
    (policy : PortfolioPolicy env.unicode) (asOf : DateTime) (card : WorkCandidate env.unicode) :
    Prop :=
  card ∈ candidates ∧
    reasonsAgainst (globalReasonsOf candidates quality policy asOf) capacities policy asOf card = []

/-- The recommendations are the eligible cards, each before those it is related to. -/
def RankedBy (r : WorkCandidate env.unicode → WorkCandidate env.unicode → Prop)
    (eligible : WorkCandidate env.unicode → Prop) (plan : PortfolioPlanContent env.unicode) : Prop :=
  ∃ cards : List (WorkCandidate env.unicode),
    plan.recommendations.map RankedCandidate.cardId = cards.map WorkCandidate.cardId ∧
      (∀ card, card ∈ cards ↔ eligible card) ∧ cards.Pairwise r

/-- The recommendations are in the declared order. -/
def InDeclaredOrder (candidates : List (WorkCandidate env.unicode))
    (capacities : Assoc String (AgentCapacity env.unicode)) (quality : PlanDataQuality)
    (policy : PortfolioPolicy env.unicode) (asOf : DateTime)
    (plan : PortfolioPlanContent env.unicode) : Prop :=
  RankedBy (fun c d => declaredKey c policy asOf < declaredKey d policy asOf)
    (IsEligible candidates capacities quality policy asOf) plan

/-- Lists with the same images are the same where the images tell their members apart. -/
theorem eq_of_map_eq {α β : Type*} {f : α → β} : ∀ {l m : List α},
    (∀ a ∈ l, ∀ b ∈ m, f a = f b → a = b) → l.map f = m.map f → l = m
  | [], [], _, _ => rfl
  | a :: l, [], _, h => by cases h
  | [], b :: m, _, h => by cases h
  | a :: l, b :: m, hinj, h => by
    rw [List.map_cons, List.map_cons, List.cons.injEq] at h
    rw [hinj a List.mem_cons_self b List.mem_cons_self h.1,
      eq_of_map_eq (fun a ha b hb => hinj a (List.mem_cons_of_mem _ ha) b (List.mem_cons_of_mem _ hb))
        h.2]

/-- Where the eligible cards have distinct ids, one order of them implies another exactly when it
does so for each two of them. -/
theorem rankedBy_iff {r s : WorkCandidate env.unicode → WorkCandidate env.unicode → Prop}
    {eligible : WorkCandidate env.unicode → Prop}
    (hids : ∀ c d, eligible c → eligible d → c.cardId = d.cardId → c = d)
    (hasymm : ∀ c d, r c d → ¬ r d c) (h : RankedBy r eligible plan) :
    RankedBy s eligible plan ↔ ∀ c d, eligible c → eligible d → r c d → s c d := by
  obtain ⟨cards, hcards, hmem, hr⟩ := h
  constructor
  · rintro ⟨cards', hcards', hmem', hs⟩ c d hc hd hcd
    -- the two lists have the same ids, and so they are the same
    have hsame : cards' = cards := by
      refine eq_of_map_eq (fun c hc d hd => ?_) (hcards'.symm.trans hcards)
      exact hids c d ((hmem' c).mp hc) ((hmem d).mp hd)
    subst hsame
    have hsymm : Std.Symm fun c d => (r c d ∧ s c d) ∨ (r d c ∧ s d c) := ⟨fun _ _ => Or.symm⟩
    have hboth := ((hr.and hs).imp fun h => Or.inl h).forall (R := fun c d =>
      (r c d ∧ s c d) ∨ (r d c ∧ s d c))
    have hne : c ≠ d := by
      rintro rfl
      exact hasymm c c hcd hcd
    rcases hboth ((hmem c).mpr hc) ((hmem d).mpr hd) hne with ⟨-, h⟩ | ⟨h, -⟩
    · exact h
    · exact absurd h (hasymm c d hcd)
  · intro himp
    exact ⟨cards, hcards, hmem, hr.imp_of_mem fun {c d} hc hd hcd =>
      himp c d ((hmem c).mp hc) ((hmem d).mp hd) hcd⟩

/-- An order of the eligible cards leaves no choice: plans that are in it recommend the same. -/
theorem rankedBy_unique {r : WorkCandidate env.unicode → WorkCandidate env.unicode → Prop}
    {eligible : WorkCandidate env.unicode → Prop} {plan' : PortfolioPlanContent env.unicode}
    (hasymm : ∀ c d, r c d → ¬ r d c) (h : RankedBy r eligible plan)
    (h' : RankedBy r eligible plan') :
    plan.recommendations.map RankedCandidate.cardId =
      plan'.recommendations.map RankedCandidate.cardId := by
  obtain ⟨cards, hcards, hmem, hpairs⟩ := h
  obtain ⟨cards', hcards', hmem', hpairs'⟩ := h'
  have hne : ∀ {c d}, r c d → c ≠ d := by
    rintro c _ h rfl
    exact hasymm c c h h
  have hperm : cards.Perm cards' :=
    (List.perm_ext_iff_of_nodup (hpairs.imp hne) (hpairs'.imp hne)).mpr
      fun card => (hmem card).trans (hmem' card).symm
  have hsame : cards = cards' :=
    hperm.eq_of_pairwise (fun c d _ _ h h' => absurd h' (hasymm c d h)) hpairs hpairs'
  exact hcards.trans (hsame ▸ hcards'.symm)

/-! ### What a returned plan says of its input -/

/-- The inputs beside the candidates with which a plan is returned. -/
structure Admitted (u : Unicode) (objectiveHash : String) (asOf : DateTime)
    (sourceRefs : List CanonicalSourceRef) : Prop where
  hash : isSha256 objectiveHash = true
  aware : asOf.isAware = true
  normalized : ∀ s ∈ sourceRefs, u.nfc s.sourceId = s.sourceId
  distinct : (sourceRefs.map CanonicalSourceRef.sourceId).Nodup

theorem admitted_of_ok (h : evaluatePortfolio env candidates capacities quality policy objectiveHash
    asOf sourceRefs = .ok plan) : Admitted env.unicode objectiveHash asOf sourceRefs := by
  unfold evaluatePortfolio at h
  split at h
  · exact absurd h throw_ne_ok
  · rename_i haware
    obtain ⟨decided, -, h⟩ := bind_eq_ok.mp h
    obtain ⟨ranked, -, h⟩ := bind_eq_ok.mp h
    obtain ⟨exclusions, -, h⟩ := bind_eq_ok.mp h
    obtain ⟨abstention, -, h⟩ := bind_eq_ok.mp h
    obtain ⟨hash, hhash, h⟩ := bind_eq_ok.mp h
    have hvalid := objection_eq_none.mp plan.valid
    rw [create_eq_ok.mp h] at hvalid
    have hsources := sortedUnique_sources.mp hvalid.2.2.2.2.2.2
    refine ⟨?_, by simpa using haware, hsources.1, hsources.2⟩
    unfold checkSha256 at hhash
    split at hhash
    · assumption
    · exact absurd hhash throw_ne_ok

/-- The parts of a returned plan. -/
theorem parts_of_ok (h : evaluatePortfolio env candidates capacities quality policy objectiveHash
    asOf sourceRefs = .ok plan) :
    ∃ decided, DecidedAs (globalReasonsOf candidates quality policy asOf) candidates capacities policy
        asOf decided ∧
      Ranks 0 (eligibleDecisions (decided.map Prod.fst)) plan.recommendations ∧
      Covers candidates quality policy asOf plan := by
  have hadmitted := admitted_of_ok h
  obtain ⟨decided, hdecided⟩ := exists_decided_of_ok h
  obtain ⟨ranked, exclusions, status, abstention, hranked, hids, -, habstains, heq⟩ :=
    evaluatePortfolio_of_decided hdecided hadmitted.hash hadmitted.aware sourceRefs
  have hfields := create_eq_ok.mp (heq.symm.trans h)
  have hrecommendations : plan.recommendations = ranked := congrArg PlanFields.recommendations hfields
  refine ⟨decided, hdecided, hrecommendations.symm ▸ hranked,
    covers_of_planFields hdecided hranked hids hrecommendations
      (congrArg PlanFields.exclusions hfields) ?_⟩
  rw [show plan.status = status from congrArg PlanFields.status hfields]
  exact habstains

/-- A plan is returned exactly when the other inputs are admitted, the times of the eligible cards
have a reading in UTC and the ids of the others are normalized. -/
theorem exists_plan_iff :
    (∃ plan, evaluatePortfolio env candidates capacities quality policy objectiveHash asOf
        sourceRefs = .ok plan) ↔
      Admitted env.unicode objectiveHash asOf sourceRefs ∧ ∀ card ∈ candidates,
        if reasonsAgainst (globalReasonsOf candidates quality policy asOf) capacities policy asOf
          card = [] then TimesInSpan env card else env.unicode.nfc card.cardId = card.cardId := by
  constructor
  · rintro ⟨plan, h⟩
    have hadmitted := admitted_of_ok h
    obtain ⟨-, -, -, hcovers⟩ := parts_of_ok h
    exact ⟨hadmitted, (evaluatePortfolio_covers_iff env candidates capacities quality policy
      objectiveHash asOf sourceRefs hadmitted.hash hadmitted.aware hadmitted.normalized
      hadmitted.distinct).mp ⟨plan, h, hcovers⟩⟩
  · rintro ⟨hadmitted, hcards⟩
    obtain ⟨plan, h, -⟩ := (evaluatePortfolio_covers_iff env candidates capacities quality policy
      objectiveHash asOf sourceRefs hadmitted.hash hadmitted.aware hadmitted.normalized
      hadmitted.distinct).mpr hcards
    exact ⟨plan, h⟩

/-! ### The order of a plan -/

/-- The card of an eligible decision, with the key that the decision has from it. -/
structure KeyOf (candidates : List (WorkCandidate env.unicode))
    (capacities : Assoc String (AgentCapacity env.unicode)) (quality : PlanDataQuality)
    (policy : PortfolioPolicy env.unicode) (asOf : DateTime) (d : EligibilityDecision)
    (card : WorkCandidate env.unicode) : Prop where
  eligible : IsEligible candidates capacities quality policy asOf card
  cardId : d.cardId = card.cardId
  key : ∃ t k, card.readyAt = some t ∧ t.isAware = true ∧ rankingKey card t policy asOf = .ok k ∧
    d.rankingKey = some k

theorem readyAt_aware {card : WorkCandidate env.unicode}
    {capacity : Option (AgentCapacity env.unicode)}
    (h : candidateReasons card capacity policy asOf = []) :
    ∃ t, card.readyAt = some t ∧ t.isAware = true := by
  obtain ⟨t, ht⟩ := exists_readyAt h
  simp only [candidateReasons, cardReasons, List.append_eq_nil_iff, flag_eq_nil] at h
  have haware : ¬ (!aware card.readyAt) = true := h.1.1.2
  rw [ht] at haware
  exact ⟨t, ht, by simpa [aware] using haware⟩

/-- The key of an eligible decision is that of its card. -/
theorem exists_key {globalReasons : List ReasonCode} {card : WorkCandidate env.unicode}
    {p : EligibilityDecision × Option CanonicalWarning}
    (h : decideCard globalReasons capacities policy asOf card = .ok p)
    (hnil : reasonsAgainst globalReasons capacities policy asOf card = []) :
    ∃ t k, card.readyAt = some t ∧ t.isAware = true ∧ rankingKey card t policy asOf = .ok k ∧
      p.1.rankingKey = some k := by
  have hcandidate := candidateReasons_eq_nil hnil
  obtain ⟨t, ht, haware⟩ := readyAt_aware hcandidate
  rw [decideCard, if_neg (not_not.mpr (globalReasons_eq_nil hnil)), candidateDecision] at h
  obtain ⟨key, hkey, h⟩ := bind_eq_ok.mp h
  simp only [decisionKey, ht, if_pos hcandidate] at hkey
  obtain ⟨k, hk, hkey⟩ := bind_eq_ok.mp hkey
  refine ⟨t, k, ht, haware, hk, ?_⟩
  rw [← pure_eq_ok.mp h, ← pure_eq_ok.mp hkey]

theorem exists_keyOf {decided : List (EligibilityDecision × Option CanonicalWarning)}
    (h : DecidedAs (globalReasonsOf candidates quality policy asOf) candidates capacities policy
      asOf decided) {d : EligibilityDecision} (hd : d ∈ eligibleDecisions (decided.map Prod.fst)) :
    ∃ card, KeyOf candidates capacities quality policy asOf d card := by
  obtain ⟨hd, heligible⟩ := List.mem_filter.mp ((List.perm_insertionSort _ _).mem_iff.mp hd)
  obtain ⟨p, hp, rfl⟩ := List.mem_map.mp hd
  obtain ⟨card, hcard, hok⟩ := (mem_mapM_iff h p).mp hp
  have hspec := decideCard_spec hok
  have hnil := hspec.eligible.mp heligible
  exact ⟨card, ⟨mem_orderedCandidates hcard, hnil⟩, hspec.cardId, exists_key hok hnil⟩

/-- Eligible cards have distinct ids. -/
theorem eq_of_cardId_eq {c d : WorkCandidate env.unicode}
    (hc : IsEligible candidates capacities quality policy asOf c)
    (hd : IsEligible candidates capacities quality policy asOf d) (h : c.cardId = d.cardId) :
    c = d :=
  List.inj_on_of_nodup_map (nodup_of_globalReasons (globalReasons_eq_nil hc.2)) hc.1 hd.1 h

theorem cardId_eq_of_readKey {c d : WorkCandidate env.unicode}
    (h : readKey env c policy asOf = readKey env d policy asOf) : c.cardId = d.cardId := by
  simp only [readKey, restKey, tailKey, EmbeddingLike.apply_eq_iff_eq, Prod.mk.injEq] at h
  exact h.2.2.2.2.2

/-- The smaller key is read from the card that comes first. -/
theorem readKey_lt {d e : EligibilityDecision} {c c' : WorkCandidate env.unicode}
    (h : KeyOf candidates capacities quality policy asOf d c)
    (h' : KeyOf candidates capacities quality policy asOf e c') (hle : d.sortKey ≤ e.sortKey)
    (hne : d.cardId ≠ e.cardId) : readKey env c policy asOf < readKey env c' policy asOf := by
  obtain ⟨t, k, ht, haware, hk, hkey⟩ := h.key
  obtain ⟨t', k', ht', haware', hk', hkey'⟩ := h'.key
  have hkeys : k ≤ k' := by
    rw [EligibilityDecision.sortKey, EligibilityDecision.sortKey, hkey, hkey'] at hle
    exact WithBot.coe_le_coe.mp hle
  have hread : readKey env c policy asOf ≤ readKey env c' policy asOf := by
    rw [← not_lt, ← rankingKey_lt_iff ht' ht haware' haware hk' hk, not_lt]
    exact hkeys
  refine lt_of_le_of_ne hread fun heq => hne ?_
  rw [h.cardId, h'.cardId]
  exact cardId_eq_of_readKey heq

theorem exists_forall₂ {α β : Type*} {R : α → β → Prop} : ∀ {l : List α},
    (∀ a ∈ l, ∃ b, R a b) → ∃ m, List.Forall₂ R l m
  | [], _ => ⟨[], .nil⟩
  | a :: l, h => by
    obtain ⟨b, hb⟩ := h a List.mem_cons_self
    obtain ⟨m, hm⟩ := exists_forall₂ fun a ha => h a (List.mem_cons_of_mem _ ha)
    exact ⟨b :: m, .cons hb hm⟩

theorem exists_left_of_forall₂ {α β : Type*} {R : α → β → Prop} {l : List α} {m : List β}
    (h : List.Forall₂ R l m) : ∀ b ∈ m, ∃ a ∈ l, R a b := by
  induction h with
  | nil => exact fun _ hb => absurd hb List.not_mem_nil
  | cons hab _ ih =>
    intro b hb
    rcases List.mem_cons.mp hb with rfl | hb
    · exact ⟨_, List.mem_cons_self, hab⟩
    · obtain ⟨a, ha, h⟩ := ih b hb
      exact ⟨a, List.mem_cons_of_mem _ ha, h⟩

/-- What relates the members of a list to each other relates those of a list beside it. -/
theorem pairwise_of_forall₂ {α β : Type*} {R : α → β → Prop} {S : α → α → Prop} {T : β → β → Prop}
    {l : List α} {m : List β} (h : List.Forall₂ R l m) (hl : l.Pairwise S)
    (himp : ∀ a a' b b', R a b → R a' b' → S a a' → T b b') : m.Pairwise T := by
  induction h with
  | nil => exact .nil
  | cons hab hlm ih =>
    rw [List.pairwise_cons] at hl ⊢
    refine ⟨fun b' hb' => ?_, ih hl.2⟩
    obtain ⟨a', ha', hab'⟩ := exists_left_of_forall₂ hlm b' hb'
    exact himp _ _ _ _ hab hab' (hl.1 a' ha')

/-- **The recommendations are in the order that the machine reads.** -/
theorem rankedBy_readKey (h : evaluatePortfolio env candidates capacities quality policy
    objectiveHash asOf sourceRefs = .ok plan) :
    RankedBy (fun c d => readKey env c policy asOf < readKey env d policy asOf)
      (IsEligible candidates capacities quality policy asOf) plan := by
  obtain ⟨decided, hdecided, hranks, -⟩ := parts_of_ok h
  obtain ⟨cards, hcards⟩ := exists_forall₂ fun d hd => exists_keyOf hdecided (d := d) hd
  have hids : (eligibleDecisions (decided.map Prod.fst)).map EligibilityDecision.cardId =
      cards.map WorkCandidate.cardId := by
    have heq := hcards.imp fun d card hkey => hkey.cardId
    exact List.forall₂_eq_eq_eq ▸ List.forall₂_map_left_iff.mpr (List.forall₂_map_right_iff.mpr heq)
  refine ⟨cards, hranks.cardIds.trans hids, fun card => ⟨fun hcard => ?_, fun hcard => ?_⟩, ?_⟩
  · obtain ⟨d, -, hkey⟩ := exists_left_of_forall₂ hcards card hcard
    exact hkey.eligible
  · -- its decision is eligible, and the card beside that has the same id
    have hordered : card ∈ orderedCandidates (globalReasonsOf candidates quality policy asOf)
        candidates :=
      (mem_orderedCandidates_iff (nodup_of_globalReasons (globalReasons_eq_nil hcard.2))).mpr hcard.1
    obtain ⟨p, hp, hok⟩ := mapM_ok_of_mem hdecided card hordered
    have hspec := decideCard_spec hok
    have hmem : p.1 ∈ eligibleDecisions (decided.map Prod.fst) :=
      (List.perm_insertionSort _ _).mem_iff.mpr (List.mem_filter.mpr
        ⟨List.mem_map.mpr ⟨p, hp, rfl⟩, hspec.eligible.mpr hcard.2⟩)
    have hid : card.cardId ∈ cards.map WorkCandidate.cardId :=
      hids ▸ hspec.cardId ▸ List.mem_map.mpr ⟨p.1, hmem, rfl⟩
    obtain ⟨card', hcard', hid⟩ := List.mem_map.mp hid
    obtain ⟨d, -, hkey⟩ := exists_left_of_forall₂ hcards card' hcard'
    rwa [← eq_of_cardId_eq hkey.eligible hcard hid]
  · have htotal : Std.Total fun d e : EligibilityDecision => d.sortKey ≤ e.sortKey :=
      ⟨fun d e => le_total d.sortKey e.sortKey⟩
    have htrans : IsTrans EligibilityDecision fun d e => d.sortKey ≤ e.sortKey :=
      ⟨fun _ _ _ => le_trans⟩
    have hsorted : (eligibleDecisions (decided.map Prod.fst)).Pairwise
        fun d e => d.sortKey ≤ e.sortKey := List.pairwise_insertionSort _ _
    have hnodup : ((eligibleDecisions (decided.map Prod.fst)).map
        EligibilityDecision.cardId).Nodup := by
      have hperm := (perm_eligibleDecisions (decided.map Prod.fst)).map EligibilityDecision.cardId
      rw [List.map_append] at hperm
      exact (List.nodup_append.mp (hperm.nodup_iff.mpr ((pairwise_decided hdecided).imp ne_of_lt))).1
    exact pairwise_of_forall₂ hcards (hsorted.and (List.pairwise_map.mp hnodup))
      fun _ _ _ _ hkey hkey' hboth => readKey_lt hkey hkey' hboth.1 hboth.2

/-! ### Hosts -/

/-- A time zone: at each reading of the wall an offset of less than a day, if any. -/
structure Zone where
  offsetAt : ℤ → Option ℤ
  withinDay : ∀ wall offset, offsetAt wall = some offset →
    -86400000000 < offset ∧ offset < 86400000000

/-- The machine in a zone. -/
abbrev Env.inZone (env : Env) (zone : Zone) : Env := { env with localOffset := zone.offsetAt }

/-- Cards that clash are ranked as they clash, or they clash both ways. -/
theorem readKey_lt_of_clash {c d : WorkCandidate env.unicode} (h : Clash env policy asOf c d) :
    readKey env c policy asOf < readKey env d policy asOf ∨ Clash env policy asOf d c := by
  cases h with
  | order n absent present beyond =>
    refine .inl ?_
    rw [readKey, readKey, absent, present]
    refine Prod.Lex.toLex_lt_toLex.mpr ?_
    rcases beyond with hlt | ⟨heq, hlt⟩
    · exact .inl hlt
    · exact .inr ⟨heq.symm, hlt⟩
  | date t same absent present beyond =>
    refine .inl ?_
    rw [readKey, readKey, same.1]
    refine keys_lt_iff.mpr (.inr ⟨rfl, .inr ⟨same.2, ?_⟩⟩)
    rw [readDate, readDate, absent, present]
    rcases beyond with hlt | ⟨heq, hlt⟩
    · exact .inl hlt
    · exact .inr ⟨heq.symm, hlt⟩
  | naive s t same first second unknown differ =>
    exact .inr (.naive t s ⟨same.1.symm, same.2.symm⟩ second first unknown.symm differ.symm)

/-- On a host a returned plan is in the declared order exactly when no two of its cards clash. -/
theorem inDeclaredOrder_iff (h : evaluatePortfolio env candidates capacities quality policy
    objectiveHash asOf sourceRefs = .ok plan) :
    InDeclaredOrder candidates capacities quality policy asOf plan ↔
      ∀ c d, IsEligible candidates capacities quality policy asOf c →
        IsEligible candidates capacities quality policy asOf d → ¬ Clash env policy asOf c d := by
  rw [InDeclaredOrder, rankedBy_iff (fun _ _ hc hd => eq_of_cardId_eq hc hd)
    (fun _ _ => lt_asymm) (rankedBy_readKey h)]
  constructor
  · intro himp c d hc hd hclash
    have hnot : ∀ {c d}, IsEligible candidates capacities quality policy asOf c →
        IsEligible candidates capacities quality policy asOf d → Clash env policy asOf c d →
          ¬ readKey env c policy asOf < readKey env d policy asOf :=
      fun hc hd hclash hlt => not_declaredKey_lt hclash (himp _ _ hc hd hlt)
    have hback : Clash env policy asOf d c :=
      (readKey_lt_of_clash hclash).resolve_left (hnot hc hd hclash)
    have heq : readKey env c policy asOf = readKey env d policy asOf :=
      le_antisymm (not_lt.mp (hnot hd hc hback)) (not_lt.mp (hnot hc hd hclash))
    obtain rfl := eq_of_cardId_eq hc hd (cardId_eq_of_readKey heq)
    -- no card clashes with itself
    cases hclash with
    | order n absent present beyond => exact nomatch absent.symm.trans present
    | date t same absent present beyond => exact nomatch absent.symm.trans present
    | naive s t same first second unknown differ =>
      exact differ (congrArg momentOf (Option.some.inj (first.symm.trans second)))
  · exact fun hclash c d hc hd hlt => (declaredKey_lt_iff hlt).mpr (hclash c d hc hd)

/-- **Ranking is the declared order**: where a plan is returned at all, its recommendations are in
the declared order in every zone, if and only if in no zone in which the dates of the eligible cards
can be read two of these cards clash. -/
theorem ranking_iff (env : Env) (candidates : List (WorkCandidate env.unicode))
    (capacities : Assoc String (AgentCapacity env.unicode)) (quality : PlanDataQuality)
    (policy : PortfolioPolicy env.unicode) (objectiveHash : String) (asOf : DateTime)
    (sourceRefs : List CanonicalSourceRef) (plan : PortfolioPlanContent env.unicode)
    (h : evaluatePortfolio env candidates capacities quality policy objectiveHash asOf sourceRefs =
      .ok plan) :
    (∀ zone plan', evaluatePortfolio (env.inZone zone) candidates capacities quality policy
        objectiveHash asOf sourceRefs = .ok plan' →
          InDeclaredOrder candidates capacities quality policy asOf plan') ↔
      ∀ zone, (∀ card, IsEligible candidates capacities quality policy asOf card →
          TimesInSpan (env.inZone zone) card) →
        ∀ c d, IsEligible candidates capacities quality policy asOf c →
          IsEligible candidates capacities quality policy asOf d →
            ¬ Clash (env.inZone zone) policy asOf c d := by
  obtain ⟨hadmitted, hcards⟩ := exists_plan_iff.mp ⟨plan, h⟩
  constructor
  · intro hordered zone htimes c d hc hd
    have hplan : ∃ plan', evaluatePortfolio (env.inZone zone) candidates capacities quality policy
        objectiveHash asOf sourceRefs = .ok plan' := by
      refine exists_plan_iff.mpr ⟨hadmitted, fun card hcard => ?_⟩
      have hcond := hcards card hcard
      by_cases hnil : reasonsAgainst (globalReasonsOf candidates quality policy asOf) capacities
        policy asOf card = []
      · exact (if_pos hnil).mpr (htimes card ⟨hcard, hnil⟩)
      · rw [if_neg hnil] at hcond
        exact (if_neg hnil).mpr hcond
    obtain ⟨plan', hplan'⟩ := hplan
    exact (inDeclaredOrder_iff hplan').mp (hordered zone plan' hplan') c d hc hd
  · intro hclash zone plan' hplan'
    refine (inDeclaredOrder_iff hplan').mpr (hclash zone fun card hcard => ?_)
    have hcond := (exists_plan_iff.mp ⟨plan', hplan'⟩).2 card hcard.1
    exact (if_pos hcard.2).mp hcond

/-! ### A date without an offset -/

/-- A zone with one offset. -/
def fixedZone (offset : ℤ) (h : -86400000000 < offset ∧ offset < 86400000000) : Zone where
  offsetAt := fun _ => some offset
  withinDay := fun _ _ heq => Option.some.inj heq ▸ h

/-- Two cards, of which the first one has its date at noon, wherever that is, and the second one two
hours before noon in UTC. -/
def datedCards : List (WorkCandidate plainUnicode) :=
  [datedCandidate "card-a" ⟨63871329600000000, none, 0, by decide⟩,
    datedCandidate "card-b" ⟨63871322400000000, some 0, 0, by decide⟩]

/-- Their plan on a host. -/
def hostPlan (zone : Zone) : Except ContractError (PortfolioPlanContent plainUnicode) :=
  evaluatePortfolio (utcMachine.inZone zone) datedCards [("autocoder", idleExecutor)] sampleQuality
    backlogPolicy sampleHash.text sampleTime []

theorem exists_hostPlan {zone : Zone} {ids : List String}
    (h : (hostPlan zone).toOption.map (fun p => p.recommendations.map RankedCandidate.cardId) =
      some ids) :
    ∃ plan, hostPlan zone = .ok plan ∧ plan.recommendations.map RankedCandidate.cardId = ids := by
  obtain ⟨plan, hplan, hids⟩ := Option.map_eq_some_iff.mp h
  exact ⟨plan, toOption_eq_some.mp hplan, hids⟩

theorem hostPlan_utc : ∃ plan, hostPlan (fixedZone 0 (by decide)) = .ok plan ∧
    plan.recommendations.map RankedCandidate.cardId = ["card-b", "card-a"] :=
  exists_hostPlan (by decide +kernel)

/-- Five hours east of UTC noon comes before the other date. -/
theorem hostPlan_east : ∃ plan, hostPlan (fixedZone 18000000000 (by decide)) = .ok plan ∧
    plan.recommendations.map RankedCandidate.cardId = ["card-a", "card-b"] :=
  exists_hostPlan (by decide +kernel)

theorem ranking_iff_utc :
    ∃ plan, hostPlan (fixedZone 0 (by decide)) = .ok plan ∧
      ((∀ zone plan', hostPlan zone = .ok plan' →
          @InDeclaredOrder utcMachine datedCards [("autocoder", idleExecutor)] sampleQuality
            backlogPolicy sampleTime plan') ↔
        ∀ zone, (∀ card, @IsEligible utcMachine datedCards [("autocoder", idleExecutor)]
            sampleQuality backlogPolicy sampleTime card →
              TimesInSpan (utcMachine.inZone zone) card) →
          ∀ c d, @IsEligible utcMachine datedCards [("autocoder", idleExecutor)] sampleQuality
              backlogPolicy sampleTime c →
            @IsEligible utcMachine datedCards [("autocoder", idleExecutor)] sampleQuality
              backlogPolicy sampleTime d →
              ¬ Clash (utcMachine.inZone zone) backlogPolicy sampleTime c d) := by
  obtain ⟨plan, hplan, -⟩ := hostPlan_utc
  exact ⟨plan, hplan, ranking_iff utcMachine datedCards [("autocoder", idleExecutor)] sampleQuality
    backlogPolicy sampleHash.text sampleTime [] plan hplan⟩

/-- The order of the two cards is that of the host. -/
theorem ranking_follows_host :
    (∃ plan plan', hostPlan (fixedZone 0 (by decide)) = .ok plan ∧
      hostPlan (fixedZone 18000000000 (by decide)) = .ok plan' ∧
      plan.recommendations.map RankedCandidate.cardId ≠
        plan'.recommendations.map RankedCandidate.cardId) ∧
    ¬ ∀ zone plan, hostPlan zone = .ok plan →
      @InDeclaredOrder utcMachine datedCards [("autocoder", idleExecutor)] sampleQuality
        backlogPolicy sampleTime plan := by
  obtain ⟨plan, hplan, hids⟩ := hostPlan_utc
  obtain ⟨plan', hplan', hids'⟩ := hostPlan_east
  have hne : plan.recommendations.map RankedCandidate.cardId ≠
      plan'.recommendations.map RankedCandidate.cardId := by
    rw [hids, hids']
    decide
  refine ⟨⟨plan, plan', hplan, hplan', hne⟩, fun hordered => ?_⟩
  exact hne (rankedBy_unique (fun _ _ => lt_asymm) (hordered _ plan hplan)
    (hordered _ plan' hplan'))

end SkCoord.Portfolio
