import SkCoord.CardStore.Fold
import SkCoord.Python.Except

/-!
# What an event writes

`foldAction` has one function for each action, and `step_writes` says once what all of them leave of
the identifier, the kind, the order, the dependencies, the links and the metadata of a card.  The
lemmas for one function say which fields it writes (`foldNote_eq`, `foldReleaseClaim_keeps`).
-/

namespace SkCoord

open Python

/-- The dependencies after one event. -/
def dependenciesNext (deps : List String) (e : Event) : List String :=
  match e.action, e.get "dependency" with
  | .addDependency, .str d => Card.addDependency deps d
  | .removeDependency, .str d => deps.erase d
  | _, _ => deps

/-- The links after one event. -/
def linksNext (links : List (Json × Json)) (e : Event) : List (Json × Json) :=
  if e.action = .link ∧ (e.get "link_key").isNone = false then
    Card.setLink (e.get "link_key") (e.get "link_value") links
  else links

theorem dependenciesNext_of_ne {deps : List String} {e : Event}
    (hadd : e.action ≠ .addDependency) (hremove : e.action ≠ .removeDependency) :
    dependenciesNext deps e = deps := by
  unfold dependenciesNext
  split
  · rename_i heq _
    exact absurd heq hadd
  · rename_i heq _
    exact absurd heq hremove
  · rfl

theorem linksNext_of_ne {links : List (Json × Json)} {e : Event} (h : e.action ≠ .link) :
    linksNext links e = links := if_neg fun hand => h hand.1

/-- The fields of `meta` that events write. -/
def eventFields : List String :=
  ["_claim_revision", "voided", "voided_at", "voided_by", "claim_conflicts", "release_conflicts",
    "archived_at", "archived_by", "comments", "agent_run"]

/-- No field that events leave alone is changed. -/
def SameBirth (d d' : Dict) : Prop := ∀ k, k ∉ eventFields → Dict.get d' k = Dict.get d k

namespace SameBirth

variable {d d' : Dict} {f : String}

theorem refl (d : Dict) : SameBirth d d := fun _ _ => rfl

theorem trans {d'' : Dict} (h : SameBirth d d') (h' : SameBirth d' d'') : SameBirth d d'' :=
  fun k hk => (h' k hk).trans (h k hk)

theorem set (h : SameBirth d d') (hf : f ∈ eventFields) (v : Json) :
    SameBirth d (Assoc.set d' f v) := by
  intro k hk
  have hne : k ≠ f := fun heq => hk (heq ▸ hf)
  rw [Dict.get_set_ne d' v hne, h k hk]

theorem erase (h : SameBirth d d') (hf : f ∈ eventFields) : SameBirth d (Assoc.erase d' f) := by
  intro k hk
  have hne : k ≠ f := fun heq => hk (heq ▸ hf)
  rw [Dict.get_erase_ne d' hne, h k hk]

end SameBirth

namespace Card

variable {c c' : Card} {e : Event} {cardId : String}

/-! ### The functions of the actions -/

theorem foldMove_eq (h : c.foldMove e = .ok c') :
    ∃ col, columnOf (e.get "column") = .ok col ∧
      c' = { c with
        status := col.getD c.status
        order := if (e.get "order").isNone then c.order else e.get "order" } := by
  obtain ⟨col, hcol, h⟩ := bind_eq_ok.mp h
  refine ⟨col, hcol, ?_⟩
  rw [← pure_eq_ok.mp h]
  split <;> rfl

theorem foldReopen_eq (h : c.foldReopen e = .ok c') :
    ∃ col, columnOf (e.get "column") = .ok col ∧
      c' = { c with archived := false, status := col.getD c.status } := by
  obtain ⟨col, hcol, h⟩ := bind_eq_ok.mp h
  exact ⟨col, hcol, (pure_eq_ok.mp h).symm⟩

theorem foldLink_eq (h : c.foldLink e = .ok c') :
    (e.get "link_key").isNone = true ∧ c' = c ∨ (e.get "link_key").isNone = false ∧
      c' = { c with links := setLink (e.get "link_key") (e.get "link_value") c.links } := by
  unfold foldLink at h
  split at h
  · rename_i hnone
    exact .inl ⟨hnone, (pure_eq_ok.mp h).symm⟩
  · rename_i hnone
    obtain ⟨-, -, h⟩ := bind_eq_ok.mp h
    exact .inr ⟨Bool.eq_false_of_not_eq_true hnone, (pure_eq_ok.mp h).symm⟩

theorem foldAmendCriteria_eq (h : c.foldAmendCriteria cardId e = .ok c') :
    ∃ criteria, c' = { c with acceptanceCriteria := criteria } := by
  unfold foldAmendCriteria at h
  dsimp only at h
  split at h
  · cases h
  · split at h
    · exact ⟨_, (pure_eq_ok.mp h).symm⟩
    · cases h
  · cases h

theorem foldNote_eq (h : c.foldNote e = .ok c') :
    c' = c ∨ ∃ v, c' = { c with metaData := Assoc.set c.metaData "comments" v } := by
  unfold foldNote at h
  split at h
  · obtain ⟨comments, -, h⟩ := bind_eq_ok.mp h
    exact .inr ⟨comments, (pure_eq_ok.mp h).symm⟩
  · exact .inl (pure_eq_ok.mp h).symm

theorem withAgentRun_eq {update : Dict → Except PyError Dict}
    (h : c.withAgentRun e update = .ok c') :
    c' = c ∨ ∃ v, c' = { c with metaData := Assoc.set c.metaData "agent_run" v } := by
  unfold withAgentRun at h
  dsimp only at h
  split at h
  · obtain ⟨runId, -, h⟩ := bind_eq_ok.mp h
    split at h
    · split at h
      · obtain ⟨d, -, h⟩ := bind_eq_ok.mp h
        exact .inr ⟨.obj d, (pure_eq_ok.mp h).symm⟩
      · exact .inl (pure_eq_ok.mp h).symm
    · exact .inl (pure_eq_ok.mp h).symm
  · exact .inl (pure_eq_ok.mp h).symm

/-- Two cards of one identifier, kind, order, dependencies and links, with the metadata of one
birth. -/
structure Keeps (c c' : Card) : Prop where
  id : c'.id = c.id
  kind : c'.kind = c.kind
  order : c'.order = c.order
  dependencies : c'.dependencies = c.dependencies
  links : c'.links = c.links
  birth : SameBirth c.metaData c'.metaData

theorem Keeps.refl (c : Card) : c.Keeps c := ⟨rfl, rfl, rfl, rfl, rfl, .refl _⟩

/-- A card with other metadata of the same birth. -/
theorem Keeps.of_birth {md : Dict} (h : SameBirth c.metaData md) :
    c.Keeps { c with metaData := md } := ⟨rfl, rfl, rfl, rfl, rfl, h⟩

theorem foldReleaseClaim_keeps (h : c.foldReleaseClaim e = .ok c') : c.Keeps c' := by
  obtain ⟨l, -, h⟩ := bind_eq_ok.mp h
  dsimp only at h
  split at h
  · cases h
    exact ⟨rfl, rfl, rfl, rfl, rfl, (SameBirth.refl _).erase (by decide)⟩
  · split at h
    · cases h
      refine .of_birth ?_
      split
      · exact (SameBirth.refl _).erase (by decide)
      · exact (SameBirth.refl _).set (by decide) _
    · obtain ⟨entries, -, h⟩ := bind_eq_ok.mp h
      cases h
      exact .of_birth ((SameBirth.refl _).set (by decide) _)

theorem foldClaim_keeps (h : c.foldClaim e = .ok c') : c.Keeps c' := by
  unfold foldClaim at h
  split at h
  · obtain ⟨entries, -, h⟩ := bind_eq_ok.mp h
    cases h
    exact .of_birth ((SameBirth.refl _).set (by decide) _)
  · cases h
    have hrevision : SameBirth c.metaData
        (if (claimRevision e).isNonEmptyStr then
          Assoc.set c.metaData "_claim_revision" (claimRevision e)
        else Assoc.erase c.metaData "_claim_revision") := by
      split
      · exact (SameBirth.refl _).set (by decide) _
      · exact (SameBirth.refl _).erase (by decide)
    refine ⟨rfl, rfl, rfl, rfl, rfl, ?_⟩
    show SameBirth _ (ite _ _ _)
    split
    · exact hrevision.erase (by decide)
    · exact hrevision

theorem foldDescribe_keeps : c.Keeps (c.foldDescribe e) := by
  unfold foldDescribe
  dsimp only
  split <;> split <;> exact ⟨rfl, rfl, rfl, rfl, rfl, .refl _⟩

/-! ### An event -/

/-- What an event leaves of a card, which may be voided. -/
structure Writes (voided : Bool) (c : Card) (e : Event) (c' : Card) : Prop where
  id : c'.id = c.id
  kind : c'.kind = c.kind
  order : c'.order =
    if !voided ∧ e.action = .move ∧ !(e.get "order").isNone then e.get "order" else c.order
  dependencies : c'.dependencies = dependenciesNext c.dependencies e
  links : c'.links = linksNext c.links e
  birth : SameBirth c.metaData c'.metaData

/-- An event without a field of its own among these. -/
theorem Keeps.writes {voided : Bool} (h : c.Keeps c') (hmove : voided = true ∨ e.action ≠ .move)
    (hlink : e.action ≠ .link) (hadd : e.action ≠ .addDependency)
    (hremove : e.action ≠ .removeDependency) : c.Writes voided e c' where
  id := h.id
  kind := h.kind
  order := by
    rw [h.order, if_neg]
    rintro ⟨hvoided, hact, -⟩
    rcases hmove with rfl | hne
    · cases hvoided
    · exact hne hact
  dependencies := h.dependencies.trans (dependenciesNext_of_ne hadd hremove).symm
  links := h.links.trans (linksNext_of_ne hlink).symm
  birth := h.birth

/-- An event on the dependencies. -/
theorem writes_dependencies {voided : Bool} (hmove : e.action ≠ .move) (hlink : e.action ≠ .link) :
    c.Writes voided e { c with dependencies := dependenciesNext c.dependencies e } where
  id := rfl
  kind := rfl
  order := (if_neg fun hall => hmove hall.2.1).symm
  dependencies := rfl
  links := (linksNext_of_ne hlink).symm
  birth := .refl _

end Card

namespace FoldState

variable {cardId : String}

/-- Every action but a move keeps the fields that have no action of their own. -/
theorem foldAction_keeps {c c' : Card} {e : Event} {act : Action}
    (h : foldAction cardId c e act = .ok c') (hmove : act ≠ .move) (hlink : act ≠ .link)
    (hadd : act ≠ .addDependency) (hremove : act ≠ .removeDependency) : c.Keeps c' := by
  cases act with
  | move => exact absurd rfl hmove
  | link => exact absurd rfl hlink
  | addDependency => exact absurd rfl hadd
  | removeDependency => exact absurd rfl hremove
  | releaseClaim => exact Card.foldReleaseClaim_keeps h
  | claim => exact Card.foldClaim_keeps h
  | reopen =>
    obtain ⟨col, -, rfl⟩ := Card.foldReopen_eq h
    exact ⟨rfl, rfl, rfl, rfl, rfl, .refl _⟩
  | amendCriteria =>
    obtain ⟨criteria, rfl⟩ := Card.foldAmendCriteria_eq h
    exact ⟨rfl, rfl, rfl, rfl, rfl, .refl _⟩
  | note =>
    obtain rfl | ⟨v, rfl⟩ := Card.foldNote_eq h
    · exact .refl _
    · exact .of_birth ((SameBirth.refl _).set (by decide) v)
  | agentRunClaim | agentRunActivity | agentRunState =>
    obtain rfl | ⟨v, rfl⟩ := Card.withAgentRun_eq h
    · exact .refl _
    · exact .of_birth ((SameBirth.refl _).set (by decide) v)
  | agentRunRequest =>
    obtain rfl := pure_eq_ok.mp h
    exact .of_birth ((SameBirth.refl _).set (by decide) _)
  | assign | unassign | complete =>
    obtain rfl := pure_eq_ok.mp h
    exact ⟨rfl, rfl, rfl, rfl, rfl, (SameBirth.refl _).erase (by decide)⟩
  | void =>
    obtain rfl := pure_eq_ok.mp h
    exact ⟨rfl, rfl, rfl, rfl, rfl, ((((SameBirth.refl _).erase (by decide)).set (by decide) _).set
      (by decide) _).set (by decide) _⟩
  | archive =>
    obtain rfl := pure_eq_ok.mp h
    exact ⟨rfl, rfl, rfl, rfl, rfl, ((SameBirth.refl _).set (by decide) _).set (by decide) _⟩
  | priority | swimlane | addLabel =>
    obtain rfl := pure_eq_ok.mp h
    simp only [Card.foldPriority, Card.foldSwimlane, Card.foldAddLabel]
    split <;> exact ⟨rfl, rfl, rfl, rfl, rfl, .refl _⟩
  | describe =>
    obtain rfl := pure_eq_ok.mp h
    exact Card.foldDescribe_keeps
  | removeLabel | other =>
    obtain rfl := pure_eq_ok.mp h
    exact ⟨rfl, rfl, rfl, rfl, rfl, .refl _⟩

theorem foldAction_writes {c c' : Card} {e : Event} {voided : Bool}
    (hguard : (voided && e.action.isVoidTerminal) = false)
    (h : foldAction cardId c e e.action = .ok c') : c.Writes voided e c' := by
  by_cases hmove : e.action = .move
  · rw [hmove] at h hguard
    obtain ⟨col, -, rfl⟩ := Card.foldMove_eq h
    have hvoided : voided = false := by rwa [Action.isVoidTerminal, Bool.and_true] at hguard
    refine ⟨rfl, rfl, ?_, (dependenciesNext_of_ne ?_ ?_).symm, (linksNext_of_ne ?_).symm, .refl _⟩
    · rw [hvoided, hmove]
      cases (e.get "order").isNone <;> rfl
    all_goals rw [hmove]; decide
  by_cases hlink : e.action = .link
  · rw [hlink] at h
    have hdeps : dependenciesNext c.dependencies e = c.dependencies :=
      dependenciesNext_of_ne (by rw [hlink]; decide) (by rw [hlink]; decide)
    have horder := (if_neg fun hall => hmove hall.2.1 : (if !voided ∧ e.action = .move ∧
      !(e.get "order").isNone then e.get "order" else c.order) = c.order)
    rcases Card.foldLink_eq h with ⟨hnone, rfl⟩ | ⟨hsome, rfl⟩
    · refine ⟨rfl, rfl, horder.symm, hdeps.symm, ?_, .refl _⟩
      rw [linksNext, hnone, if_neg fun hand => nomatch hand.2]
    · refine ⟨rfl, rfl, horder.symm, hdeps.symm, ?_, .refl _⟩
      rw [linksNext, if_pos ⟨hlink, hsome⟩]
  by_cases hadd : e.action = .addDependency
  · rw [hadd] at h
    have hcard : c' = { c with dependencies := dependenciesNext c.dependencies e } := by
      rw [← pure_eq_ok.mp h]
      unfold Card.foldAddDependency dependenciesNext
      rw [hadd]
      cases e.get "dependency" <;> rfl
    exact hcard ▸ Card.writes_dependencies hmove hlink
  by_cases hremove : e.action = .removeDependency
  · rw [hremove] at h
    have hcard : c' = { c with dependencies := dependenciesNext c.dependencies e } := by
      rw [← pure_eq_ok.mp h]
      unfold Card.foldRemoveDependency dependenciesNext
      rw [hremove]
      cases e.get "dependency" <;> rfl
    exact hcard ▸ Card.writes_dependencies hmove hlink
  exact (foldAction_keeps h hmove hlink hadd hremove).writes (.inr hmove) hlink hadd hremove

/-- **One turn of the loop**: what an event leaves of the card, or nothing but its time where the
card is voided. -/
theorem step_writes {s s' : FoldState} {e : Event} (h : step cardId s e = .ok s') :
    s.card.Writes s.voided e s'.card := by
  obtain ⟨⟨⟩, -, h⟩ := bind_eq_ok.mp h
  split at h
  · rename_i hguard
    obtain ⟨hvoided, hterminal⟩ := Bool.and_eq_true_iff.mp hguard
    have hne : ∀ act, act.isVoidTerminal = false → e.action ≠ act := by
      rintro act hact rfl
      exact Bool.false_ne_true (hact.symm.trans hterminal)
    rw [← pure_eq_ok.mp h]
    exact Card.Keeps.writes ⟨rfl, rfl, rfl, rfl, rfl, .refl _⟩ (.inl hvoided) (hne _ rfl) (hne _ rfl)
      (hne _ rfl)
  · rename_i hguard
    obtain ⟨c, hact, h⟩ := bind_eq_ok.mp h
    rw [← pure_eq_ok.mp h]
    have hwrites := foldAction_writes (Bool.eq_false_of_not_eq_true hguard) hact
    exact ⟨hwrites.id, hwrites.kind, hwrites.order, hwrites.dependencies, hwrites.links,
      hwrites.birth⟩

end FoldState

/-- The card of a core before any event. -/
structure CardCore.Births (core : CardCore) (c : Card) : Prop where
  id : c.id = core.id
  dependencies : c.dependencies = core.dependencies
  links : c.links = []
  birth : SameBirth core.metaData c.metaData

theorem foldInit_births {cardId : String} {core : CardCore} {s : FoldState}
    (h : foldInit cardId core = .ok s) : core.Births s.card := by
  unfold foldInit at h
  dsimp only at h
  split at h
  · cases h
    exact ⟨rfl, rfl, rfl, .refl _⟩
  · split at h
    · split at h
      · cases h
      · cases h
        exact ⟨rfl, rfl, rfl, (SameBirth.refl _).set (by decide) _⟩
    · cases h

end SkCoord
