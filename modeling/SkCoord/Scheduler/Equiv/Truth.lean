import SkCoord.Scheduler.Truth

/-!
## Evidence and readiness

* `overlay_leaves_facts`: the facts are frozen, so the first assignment of the overlay raises and
  the handler leaves them as they were.
* `evidenceCounts_iff`: evidence of a card is carried by its facts, and keeps it from being ready,
  exactly when there is none.
-/

namespace SkCoord

open Python

variable {S : SchedulerEnv} {home : Home} {q : SchedulerQuery S} {cardId : String}

/-! ### What counts as evidence -/

namespace JoinedCardTruth

/-- A `BLOCKED` verdict. -/
def IsBlocked (truth : JoinedCardTruth) : Prop := ∃ a ∈ truth.verdicts, a.value = "BLOCKED"

/-- An open value of a gate. -/
def HasOpenGate (truth : JoinedCardTruth) (value : String) : Prop :=
  isOpenGate value = true ∧
    ∃ a ∈ truth.gateStatus, (a.key = "gate_status" ∨ a.key = "gate") ∧ a.value = value

/-- A supersession by a successor. -/
def HasSuccessor (truth : JoinedCardTruth) (successor : String) : Prop :=
  ∃ a ∈ truth.supersession, a.value = successor

/-- Evidence that keeps a card from being scheduled. -/
def HasEvidence (truth : JoinedCardTruth) : Prop :=
  truth.IsBlocked ∨ (∃ value, truth.HasOpenGate value) ∨ ∃ successor, truth.HasSuccessor successor

end JoinedCardTruth

/-- The facts carry the evidence of a joined truth. -/
structure SchedulerCardFacts.Carries (facts : SchedulerCardFacts) (truth : JoinedCardTruth) :
    Prop where
  verdict : truth.IsBlocked → "BLOCKED" ∈ facts.verdicts
  gate : (∃ value, truth.HasOpenGate value) → ∃ value ∈ facts.humanGate, truth.HasOpenGate value
  successor : (∃ successor, truth.HasSuccessor successor) →
    ∃ successor ∈ facts.supersededBy, truth.HasSuccessor successor

/-- Evidence of an evaluated card is carried by its facts, and the card is not ready. -/
def EvidenceCounts (S : SchedulerEnv) (home : Home) (q : SchedulerQuery S) : Prop :=
  ∀ ids, populationIds S home q = .ok ids → ∀ cardId ∈ ids, ∀ facts reason,
    evaluateCard S home q cardId = .ok (some (facts, reason)) →
      ∀ truth, readJoinedTruth S.env home cardId = .ok truth → truth.HasEvidence →
        reason ≠ none ∧ facts.Carries truth

/-! ### The overlay -/

theorem run_setField {σ : Type} (update : σ → σ) (s : σ) :
    (contractModel.setField update).run s = (.error (.value "Instance is frozen"), s) := rfl

/-- The overlay raises at its first assignment, if not before. -/
theorem overlayEvidence_run (S : SchedulerEnv) (home : Home) (cardId : String)
    (facts : SchedulerCardFacts) :
    ∃ e, (overlayEvidence S.env home cardId).run facts = (.error e, facts) := by
  unfold overlayEvidence
  rw [Effect.run_lift_bind]
  cases readJoinedTruth S.env home cardId with
  | error e => exact ⟨e, rfl⟩
  | ok truth => exact ⟨_, Effect.run_bind_of_error (run_setField _ facts)⟩

/-- **The overlay is lost**: whatever the joined truth says, the facts are as they were. -/
theorem overlay_leaves_facts (facts : SchedulerCardFacts) :
    ((Effect.tryExcept (overlayEvidence S.env home cardId) fun _ => pure ()).run facts).2 =
      facts := by
  obtain ⟨e, h⟩ := overlayEvidence_run S home cardId facts
  by_cases he : e = .killed
  · rw [Effect.run_tryExcept_of_killed (he ▸ h)]
  · rw [Effect.run_tryExcept_of_error h he]
    rfl

theorem canonicalArrays_eq_ok {facts facts' : SchedulerCardFacts}
    (h : canonicalArrays facts = .ok facts') : facts' = facts := by
  unfold canonicalArrays at h
  dsimp only at h
  split_ifs at h
  exact (pure_eq_ok.mp h).symm

/-- Facts without any evidence. -/
def SchedulerCardFacts.IsBare (facts : SchedulerCardFacts) : Prop :=
  facts.verdicts = [] ∧ facts.humanGate = none ∧ facts.supersededBy = none

theorem structuralFacts_isBare {env : Env} {st : Store} {card : Card} {liveFacts : Dict}
    {facts : SchedulerCardFacts}
    (h : structuralFacts env st cardId card liveFacts = .ok facts) : facts.IsBare := by
  unfold structuralFacts at h
  simp only [bind_eq_ok] at h
  obtain ⟨_, _, _, _, _, _, _, _, _, _, _, _, _, _, h⟩ := h
  rw [canonicalArrays_eq_ok h]
  exact ⟨rfl, rfl, rfl⟩

theorem evaluateCard_isBare {facts : SchedulerCardFacts} {reason : Option PrimaryReason}
    (h : evaluateCard S home q cardId = .ok (some (facts, reason))) : facts.IsBare := by
  unfold evaluateCard at h
  obtain ⟨found, hfold, h⟩ := bind_eq_ok.mp h
  cases found with
  | none => cases h
  | some card =>
    dsimp only at h
    obtain ⟨bare, hbare, h⟩ := bind_eq_ok.mp h
    rw [overlay_leaves_facts] at h
    obtain ⟨_, _, h⟩ := bind_eq_ok.mp h
    obtain ⟨_, _, h⟩ := bind_eq_ok.mp h
    cases pure_eq_ok.mp h
    exact structuralFacts_isBare hbare

/-- Bare facts carry no evidence. -/
theorem SchedulerCardFacts.IsBare.not_carries {facts : SchedulerCardFacts} (h : facts.IsBare)
    {truth : JoinedCardTruth} (hev : truth.HasEvidence) : ¬facts.Carries truth := by
  obtain ⟨hverdicts, hgate, hsuccessor⟩ := h
  intro hcarries
  rcases hev with hblocked | hopen | hsucc
  · have hmem := hcarries.verdict hblocked
    rw [hverdicts] at hmem
    exact (List.not_mem_nil hmem).elim
  · obtain ⟨value, hvalue, -⟩ := hcarries.gate hopen
    rw [hgate] at hvalue
    cases hvalue
  · obtain ⟨successor, hs, -⟩ := hcarries.successor hsucc
    rw [hsuccessor] at hs
    cases hs

/-! ### The evaluation -/

/-- A card with a joined truth has a core. -/
theorem loadCore_of_readJoinedTruth {truth : JoinedCardTruth}
    (h : readJoinedTruth S.env home cardId = .ok truth) :
    ∃ core, (home.store S.env).loadCore cardId = .ok (some core) := by
  unfold readJoinedTruth joinTruth at h
  dsimp only at h
  obtain ⟨found, hfold, h⟩ := bind_eq_ok.mp h
  cases found with
  | none => cases h
  | some card =>
    unfold Store.fold at hfold
    obtain ⟨loaded, hload, hfold⟩ := bind_eq_ok.mp hfold
    cases loaded with
    | none => cases hfold
    | some core => exact ⟨core, hload⟩

/-- An evaluation that returns has facts for every card of the population with a core. -/
theorem evaluateCard_of_core {r : Option (SchedulerCardFacts × Option PrimaryReason)}
    (h : evaluateCard S home q cardId = .ok r) {core : CardCore}
    (hcore : (home.store S.env).loadCore cardId = .ok (some core)) : r.isSome := by
  unfold evaluateCard at h
  obtain ⟨found, hfold, h⟩ := bind_eq_ok.mp h
  cases found with
  | none =>
    unfold Store.fold at hfold
    obtain ⟨loaded, hload, hfold⟩ := bind_eq_ok.mp hfold
    cases hcore.symm.trans hload
    obtain ⟨_, _, hfold⟩ := bind_eq_ok.mp hfold
    obtain ⟨_, _, hfold⟩ := bind_eq_ok.mp hfold
    obtain ⟨_, _, hfold⟩ := bind_eq_ok.mp hfold
    cases hfold
  | some card =>
    dsimp only at h
    obtain ⟨_, _, h⟩ := bind_eq_ok.mp h
    obtain ⟨_, _, h⟩ := bind_eq_ok.mp h
    obtain ⟨_, _, h⟩ := bind_eq_ok.mp h
    rw [← pure_eq_ok.mp h]
    rfl

/-- **Evidence counts exactly where there is none**: an evaluation that returns upholds the
promise to carry the evidence of its cards, and to hold them back, if and only if no card of the
population has a `BLOCKED` verdict, an open gate or a successor. -/
theorem evidenceCounts_iff {result : SchedulerTruthV1}
    (h : evaluateSchedulerTruth S home q = .ok result) :
    EvidenceCounts S home q ↔ ∀ ids, populationIds S home q = .ok ids → ∀ cardId ∈ ids,
      ∀ truth, readJoinedTruth S.env home cardId = .ok truth → ¬truth.HasEvidence := by
  constructor
  · intro hcounts ids hids cardId hmem truth htruth hev
    unfold evaluateSchedulerTruth at h
    obtain ⟨ids', hids', h⟩ := bind_eq_ok.mp h
    obtain ⟨evaluated, hevaluated, -⟩ := bind_eq_ok.mp h
    cases hids.symm.trans hids'
    obtain ⟨core, hcore⟩ := loadCore_of_readJoinedTruth htruth
    obtain ⟨r, -, hr⟩ := mapM_ok_of_mem hevaluated cardId hmem
    obtain ⟨⟨facts, reason⟩, rfl⟩ := Option.isSome_iff_exists.mp (evaluateCard_of_core hr hcore)
    have hcarries := (hcounts ids hids cardId hmem facts reason hr truth htruth hev).2
    exact (evaluateCard_isBare hr).not_carries hev hcarries
  · intro hnone ids hids cardId hmem facts reason _ truth htruth hev
    exact (hnone ids hids cardId hmem truth htruth hev).elim

/-! ### A blocked card that is ready -/

/-- An environment in which nothing is asked of the clock. -/
def blockedEnv : SchedulerEnv where
  env := { hostname := "h", writeEnabled := true, lineHash := fun _ => "", repr := fun _ => "" }
  Instant := Unit
  now := ()
  isoformat := fun _ => "2026-10-10T00:00:00+00:00"
  fromIsoformat := fun _ => .ok ()
  later := fun _ _ => .ok false

/-- A card in the backlog with a link `verdict` to `BLOCKED`. -/
def blockedHome : Home where
  cards := [("deadbeef",
    { core := .present { id := "deadbeef", title := "t", createdAt := "2026-10-09" }
      logs := [("w@h.jsonl", [.value (.obj
        [("event_id", .str "e"), ("ts", .str "2026-10-09"), ("writer", .str "w"), ("seq", .int 0),
          ("action", .str "link"), ("link_key", .str "verdict"),
          ("link_value", .str "BLOCKED")])])] })]

/-- The query for that card. -/
def blockedQuery : SchedulerQuery blockedEnv := { cards := some ["deadbeef"] }

/-- The card counts as ready although its joined truth blocks it. -/
theorem blocked_is_ready :
    (∃ result, evaluateSchedulerTruth blockedEnv blockedHome blockedQuery = .ok result ∧
      result.readyCount = 1) ∧
    (∃ truth, readJoinedTruth blockedEnv.env blockedHome "deadbeef" = .ok truth ∧
      truth.IsBlocked) ∧
    ¬EvidenceCounts blockedEnv blockedHome blockedQuery := by
  have hblocked : ∃ truth, readJoinedTruth blockedEnv.env blockedHome "deadbeef" = .ok truth ∧
      truth.IsBlocked :=
    ⟨_, rfl, ⟨"verdict", "BLOCKED", true, false⟩, by decide, rfl⟩
  refine ⟨⟨_, rfl, rfl⟩, hblocked, fun hcounts => ?_⟩
  obtain ⟨truth, htruth, hev⟩ := hblocked
  have hready := (hcounts ["deadbeef"] rfl "deadbeef" List.mem_cons_self _ none rfl truth htruth
    (Or.inl hev)).1
  exact hready rfl

/-- The promise at the blocked card. -/
theorem evidenceCounts_iff_blocked :
    ∃ result, evaluateSchedulerTruth blockedEnv blockedHome blockedQuery = .ok result ∧
      (EvidenceCounts blockedEnv blockedHome blockedQuery ↔
        ∀ ids, populationIds blockedEnv blockedHome blockedQuery = .ok ids → ∀ cardId ∈ ids,
          ∀ truth, readJoinedTruth blockedEnv.env blockedHome cardId = .ok truth →
            ¬truth.HasEvidence) :=
  ⟨_, rfl, evidenceCounts_iff rfl⟩

end SkCoord
