import SkCoord.Coordination.Equiv.Labels
import SkCoord.Scheduler.Equiv.Evidence

/-!
# Labels and links in a fold

No action reads the labels or the links of a card but those that change them, so a fold can be
followed with any others (`FoldState.foldEvents_mark`).

* `FoldState.foldEvents_insert`: one more label or link, wherever it comes in, leaves a fold that
  returns one that returns.
* `mem_labels_inserted`, `not_mem_labels_inserted` and `linkOf_inserted`: what it asks for still
  holds behind it.
-/

namespace SkCoord

open Python

/-- The labels and the links of a card. -/
structure Marks where
  labels : List Json
  links : List (Json × Json)

/-- The labels after one event. -/
def labelsNext (labels : List Json) (e : Event) : List Json :=
  match e.action with
  | .addLabel => LabelAction.apply labels (.addLabel, e.get "label")
  | .removeLabel => LabelAction.apply labels (.removeLabel, e.get "label")
  | _ => labels

/-- The labels and the links after one event. -/
def Marks.next (m : Marks) (e : Event) : Marks := ⟨labelsNext m.labels e, linksNext m.links e⟩

namespace Card

variable {cardId : String}

/-- The labels and the links. -/
def marks (c : Card) : Marks := ⟨c.labels, c.links⟩

/-- The card with other labels and links, of another date. -/
def mark (c : Card) (m : Marks) (updatedAt : Json) : Card :=
  { c with labels := m.labels, links := m.links, updatedAt }

section

variable (c : Card) (m : Marks) (u : Json) (e : Event)

@[simp] theorem metaData_mark : (c.mark m u).metaData = c.metaData := rfl

@[simp] theorem owner_mark : (c.mark m u).owner = c.owner := rfl

@[simp] theorem releasesCurrent_mark :
    (c.mark m u).releasesCurrent e = c.releasesCurrent e := rfl

@[simp] theorem releasesConflict_mark (matching : List Json) :
    (c.mark m u).releasesConflict e matching = c.releasesConflict e matching := by
  unfold releasesConflict
  split <;> rfl

/-! ### Actions on a card with other marks -/

theorem foldMove_mark :
    (c.mark m u).foldMove e = (c.foldMove e).map fun c' => c'.mark m u := by
  unfold foldMove
  refine bind_map_congr fun col => ?_
  show Except.ok _ = Except.ok _
  apply congrArg
  dsimp only
  split <;> rfl

theorem foldReopen_mark :
    (c.mark m u).foldReopen e = (c.foldReopen e).map fun c' => c'.mark m u := by
  unfold foldReopen
  exact bind_map_congr fun col => rfl

theorem foldReleaseClaim_mark :
    (c.mark m u).foldReleaseClaim e = (c.foldReleaseClaim e).map fun c' => c'.mark m u := by
  unfold foldReleaseClaim
  simp only [metaData_mark, owner_mark, releasesCurrent_mark, releasesConflict_mark]
  refine bind_map_congr fun conflicts => ?_
  split
  · rfl
  · split
    · rfl
    · exact bind_map_congr fun entries => rfl

theorem foldClaim_mark :
    (c.mark m u).foldClaim e = (c.foldClaim e).map fun c' => c'.mark m u := by
  have hsame : (c.mark m u).claimConflicts e = c.claimConflicts e := rfl
  unfold foldClaim
  by_cases hconflict : c.claimConflicts e = true
  · rw [if_pos hconflict, if_pos (hsame.trans hconflict)]
    exact bind_map_congr fun entries => rfl
  · rw [if_neg hconflict, if_neg (by rwa [hsame])]
    rfl

theorem foldAmendCriteria_mark :
    (c.mark m u).foldAmendCriteria cardId e =
      (c.foldAmendCriteria cardId e).map fun c' => c'.mark m u := by
  unfold foldAmendCriteria
  dsimp only
  split
  · rfl
  · split <;> rfl
  · rfl

theorem foldNote_mark :
    (c.mark m u).foldNote e = (c.foldNote e).map fun c' => c'.mark m u := by
  unfold foldNote
  simp only [metaData_mark]
  split
  · exact bind_map_congr fun comments => rfl
  · rfl

theorem withAgentRun_mark (update : Dict → Except PyError Dict) :
    (c.mark m u).withAgentRun e update = (c.withAgentRun e update).map fun c' => c'.mark m u := by
  unfold withAgentRun
  dsimp only [metaData_mark]
  by_cases hrun : (Dict.get c.metaData "agent_run").truthy = true
  · rw [if_pos hrun, if_pos hrun]
    refine bind_map_congr fun runId => ?_
    cases Dict.get c.metaData "agent_run" with
    | obj d =>
      dsimp only
      by_cases hid : runId.pyEq (e.get "run_id") = true
      · rw [if_pos hid, if_pos hid]
        exact bind_map_congr fun d' => rfl
      · rw [if_neg hid, if_neg hid]
        rfl
    | _ => rfl
  · rw [if_neg hrun, if_neg hrun]
    rfl

theorem foldLink_mark {e : Event} (h : e.action = .link) :
    (c.mark m u).foldLink e = (c.foldLink e).map fun c' => c'.mark (m.next e) u := by
  have hlabels : labelsNext m.labels e = m.labels := by simp [labelsNext, h]
  unfold foldLink Marks.next linksNext
  rw [hlabels]
  by_cases hnone : (e.get "link_key").isNone = true
  · rw [if_pos hnone, if_pos hnone, if_neg (by simp [hnone])]
    rfl
  · rw [if_neg hnone, if_neg hnone, if_pos ⟨h, Bool.eq_false_iff.mpr hnone⟩]
    cases (e.get "link_key").requireHashable <;> rfl

end

end Card

namespace FoldState

variable {cardId : String}

/-- The variables of the loop with other labels and links. -/
def mark (s : FoldState) (m : Marks) (updatedAt : Json) : FoldState :=
  { s with card := s.card.mark m updatedAt }

/-- An action that is neither on a label nor on a link leaves both. -/
theorem next_of_ne {m : Marks} {e : Event} (h1 : e.action ≠ .addLabel)
    (h2 : e.action ≠ .removeLabel) (h3 : e.action ≠ .link) : m.next e = m := by
  unfold Marks.next labelsNext linksNext
  rw [if_neg fun h => h3 h.1]
  split
  · rename_i h; exact absurd h h1
  · rename_i h; exact absurd h h2
  · rfl

/-- **Other marks** go through every action unread: the label and link actions move them by a step
of their own, and the rest carry them along. -/
theorem foldAction_mark (c : Card) (m : Marks) (u : Json) (e : Event) :
    foldAction cardId (c.mark m u) e e.action =
      (foldAction cardId c e e.action).map fun c' => c'.mark (m.next e) u := by
  -- The three actions that write marks.
  by_cases hadd : e.action = .addLabel
  · have hnext : m.next e = ⟨LabelAction.apply m.labels (.addLabel, e.get "label"), m.links⟩ := by
      simp [Marks.next, labelsNext, linksNext, hadd]
    rw [hadd, hnext]
    show Except.ok (Card.foldAddLabel _ e) = Except.ok (Card.mark (Card.foldAddLabel c e) _ u)
    apply congrArg
    have hkeeps : (c.foldAddLabel e).mark
        ⟨LabelAction.apply m.labels (.addLabel, e.get "label"), m.links⟩ u =
        c.mark ⟨LabelAction.apply m.labels (.addLabel, e.get "label"), m.links⟩ u := by
      unfold Card.foldAddLabel
      split <;> rfl
    rw [hkeeps]
    unfold Card.foldAddLabel LabelAction.apply
    show (if (e.get "label").truthy && !(e.get "label").mem m.labels then _ else _) = _
    dsimp only
    split <;> rfl
  by_cases hremove : e.action = .removeLabel
  · have hnext : m.next e =
        ⟨LabelAction.apply m.labels (.removeLabel, e.get "label"), m.links⟩ := by
      simp [Marks.next, labelsNext, linksNext, hremove]
    rw [hremove, hnext]
    rfl
  by_cases hlink : e.action = .link
  · rw [hlink]
    exact Card.foldLink_mark c m u hlink
  -- The rest, one after another.
  rw [next_of_ne hadd hremove hlink]
  cases hact : e.action with
  | addLabel => exact absurd hact hadd
  | removeLabel => exact absurd hact hremove
  | link => exact absurd hact hlink
  | move => exact Card.foldMove_mark c m u e
  | reopen => exact Card.foldReopen_mark c m u e
  | releaseClaim => exact Card.foldReleaseClaim_mark c m u e
  | claim => exact Card.foldClaim_mark c m u e
  | amendCriteria => exact Card.foldAmendCriteria_mark c m u e
  | note => exact Card.foldNote_mark c m u e
  | agentRunClaim => exact Card.withAgentRun_mark c m u e _
  | agentRunActivity => exact Card.withAgentRun_mark c m u e _
  | agentRunState => exact Card.withAgentRun_mark c m u e _
  | priority =>
    show Except.ok (Card.foldPriority _ e) = Except.ok (Card.mark (Card.foldPriority c e) m u)
    unfold Card.foldPriority
    split <;> rfl
  | swimlane =>
    show Except.ok (Card.foldSwimlane _ e) = Except.ok (Card.mark (Card.foldSwimlane c e) m u)
    unfold Card.foldSwimlane
    split <;> rfl
  | addDependency =>
    show Except.ok (Card.foldAddDependency _ e) =
      Except.ok (Card.mark (Card.foldAddDependency c e) m u)
    unfold Card.foldAddDependency
    cases e.get "dependency" <;> rfl
  | removeDependency =>
    show Except.ok (Card.foldRemoveDependency _ e) =
      Except.ok (Card.mark (Card.foldRemoveDependency c e) m u)
    unfold Card.foldRemoveDependency
    cases e.get "dependency" <;> rfl
  | describe =>
    show Except.ok (Card.foldDescribe _ e) = Except.ok (Card.mark (Card.foldDescribe c e) m u)
    unfold Card.foldDescribe
    dsimp only
    split <;> split <;> rfl
  | _ => rfl

theorem step_mark (s : FoldState) (m : Marks) (u : Json) (e : Event) :
    step cardId (s.mark m u) e =
      (step cardId s e).map fun s' => s'.mark (m.next e) (e.getD "ts" u) := by
  unfold step
  show (lookupTerminal s e >>= _) = Except.map _ (lookupTerminal s e >>= _)
  cases lookupTerminal s e with
  | error err => rfl
  | ok _ =>
    show (if s.voided && e.action.isVoidTerminal then _ else _) =
      Except.map _ (if s.voided && e.action.isVoidTerminal then _ else _)
    split
    · rename_i hterm
      -- what a void ends is on no label and no link
      have hend : e.action.isVoidTerminal = true := (Bool.and_eq_true_iff.mp hterm).2
      rw [next_of_ne (by rintro h; rw [h] at hend; cases hend)
        (by rintro h; rw [h] at hend; cases hend) (by rintro h; rw [h] at hend; cases hend)]
      rfl
    · show (foldAction cardId (s.card.mark m u) e e.action >>= _) = _
      rw [foldAction_mark]
      cases foldAction cardId s.card e e.action <;> rfl

/-- **A fold with other marks** changes them in the same way. -/
theorem foldEvents_mark (cardId : String) : ∀ (events : List Event) (s : FoldState) (m : Marks)
    (u : Json),
    ∃ u', foldEvents cardId (s.mark m u) events =
      (foldEvents cardId s events).map fun s' => s'.mark (events.foldl Marks.next m) u'
  | [], s, m, u => ⟨u, rfl⟩
  | e :: events, s, m, u => by
    unfold foldEvents
    simp only [List.foldlM_cons, List.foldl_cons, step_mark]
    cases hstep : step cardId s e with
    | error err => exact ⟨u, rfl⟩
    | ok s' => exact foldEvents_mark cardId events s' (m.next e) (e.getD "ts" u)

/-- The labels and the links of a fold. -/
theorem marks_foldEvents {events : List Event} {s s' : FoldState}
    (h : foldEvents cardId s events = .ok s') :
    s'.card.marks = events.foldl Marks.next s.card.marks := by
  obtain ⟨u, hmark⟩ := foldEvents_mark cardId events s s.card.marks s.card.updatedAt
  have hsame : s.mark s.card.marks s.card.updatedAt = s := rfl
  rw [hsame, h] at hmark
  exact congrArg (fun s : FoldState => s.card.marks) (Except.ok.inj hmark)

/-! ### One more label or link -/

/-- An event that changes the labels, the links and the date of a card, and nothing else. -/
def OnMarks (cardId : String) (e : Event) : Prop :=
  ∀ s : FoldState, step cardId s e =
    .ok (s.mark (s.card.marks.next e) (e.getD "ts" s.card.updatedAt))

/-- A label or link event acts on the marks alone: it is no terminal event and voids nothing, so the
step is its action. -/
theorem onMarks_of_action {e : Event}
    (h : e.action = .addLabel ∨ e.action = .removeLabel ∨ e.action = .link)
    (hkey : e.action = .link → (e.get "link_key").requireHashable = .ok ()) :
    OnMarks cardId e := by
  intro s
  -- Its action is a text, so the lookups of the step do not raise.
  have htext : (e.get "action").requireHashable = .ok () := by
    unfold Event.action at h
    split at h
    · rename_i text htext
      rw [show e.get "action" = .str text from htext]
      rfl
    · rcases h with h | h | h <;> cases h
  have hlookup : lookupTerminal s e = .ok () := by
    unfold lookupTerminal
    rw [htext]
    split <;> rfl
  have hterm : (s.voided && e.action.isVoidTerminal) = false := by
    rcases h with h | h | h <;> simp [h, Action.isVoidTerminal]
  have hvoid : (e.action == .void) = false := by
    rcases h with h | h | h <;> simp [h]
  -- The action moves the marks by their own step.
  have hact : foldAction cardId s.card e e.action =
      .ok (s.card.mark (s.card.marks.next e) s.card.updatedAt) := by
    rcases h with h | h | h
    · have hnext : s.card.marks.next e =
          ⟨LabelAction.apply s.card.labels (.addLabel, e.get "label"), s.card.links⟩ := by
        simp [Marks.next, labelsNext, linksNext, h, Card.marks]
      rw [h, hnext]
      show Except.ok (s.card.foldAddLabel e) = _
      unfold Card.foldAddLabel LabelAction.apply
      dsimp only
      split <;> rfl
    · have hnext : s.card.marks.next e =
          ⟨LabelAction.apply s.card.labels (.removeLabel, e.get "label"), s.card.links⟩ := by
        simp [Marks.next, labelsNext, linksNext, h, Card.marks]
      rw [h, hnext]
      rfl
    · rw [h]
      show s.card.foldLink e = _
      unfold Card.foldLink Marks.next labelsNext linksNext
      rw [hkey h, h]
      by_cases hnone : (e.get "link_key").isNone = true
      · rw [if_pos hnone, if_neg (by simp [hnone])]
        rfl
      · rw [if_neg hnone, if_pos ⟨rfl, Bool.eq_false_iff.mpr hnone⟩]
        rfl
  unfold step
  rw [hlookup, ok_bind, hterm, if_neg Bool.false_ne_true, hact, ok_bind, hvoid, Bool.or_false]
  rfl

/-- **One more event** on the marks of a card, wherever it comes in, leaves a fold that returns one
that returns, with the marks that the event makes. -/
theorem foldEvents_insert {e : Event} (he : OnMarks cardId e) {p q : List Event} {s s' : FoldState}
    (h : foldEvents cardId s (p ++ q) = .ok s') :
    ∃ u, foldEvents cardId s (p ++ e :: q) =
      .ok (s'.mark ((p ++ e :: q).foldl Marks.next s.card.marks) u) := by
  obtain ⟨s₁, hp, hq⟩ := foldlM_append_eq_ok.mp h
  obtain ⟨u, hmark⟩ := foldEvents_mark cardId q s₁ (s₁.card.marks.next e)
    (e.getD "ts" s₁.card.updatedAt)
  have hbehind : foldEvents cardId s₁ q = .ok s' := hq
  have hmarks : s₁.card.marks = p.foldl Marks.next s.card.marks := marks_foldEvents hp
  refine ⟨u, foldlM_append_eq_ok.mpr ⟨s₁, hp, foldlM_cons_eq_ok.mpr ⟨_, he s₁, ?_⟩⟩⟩
  rw [List.foldl_append, List.foldl_cons, ← hmarks]
  show foldEvents cardId _ q = _
  rw [hmark, hbehind]
  rfl

end FoldState

/-! ### What the marks hold behind it -/

section

variable {tag key : String} {p q : List Event} {e : Event} {m : Marks}

theorem labels_foldl (events : List Event) (m : Marks) :
    (events.foldl Marks.next m).labels = events.foldl labelsNext m.labels := by
  induction events generalizing m with
  | nil => rfl
  | cons e events ih => exact ih (m.next e)

theorem links_foldl (events : List Event) (m : Marks) :
    (events.foldl Marks.next m).links = events.foldl linksNext m.links := by
  induction events generalizing m with
  | nil => rfl
  | cons e events ih => exact ih (m.next e)

/-- An action on a label that is no text leaves how often a tag is there. -/
theorem tally_apply_of_ne {labels : List Json} {x : Json} (hx : ∀ text, x ≠ .str text)
    (action : LabelAction) :
    tally tag (LabelAction.apply labels (action, x)) = tally tag labels := by
  have hne : (Json.str tag).pyEq x = false :=
    Bool.eq_false_of_not_eq_true fun heq => hx tag ((Json.pyEq_str_iff _ _).mp heq)
  cases action with
  | addLabel =>
    unfold LabelAction.apply
    dsimp only
    split
    · rw [tally_append, tally_cons, hne, if_neg Bool.false_ne_true]
      simp
    · rfl
  | removeLabel =>
    show tally tag (x.remove labels) = _
    induction labels with
    | nil => rfl
    | cons y labels ih =>
      unfold Json.remove
      split
      · rename_i hy
        have hytag : (Json.str tag).pyEq y = false := by
          apply Bool.eq_false_of_not_eq_true
          intro heq
          rw [(Json.pyEq_str_iff _ _).mp heq] at hy
          exact hx tag ((Json.pyEq_str_right_iff _ _).mp hy)
        rw [tally_cons, hytag, if_neg Bool.false_ne_true, Nat.add_zero]
      · rw [tally_cons, tally_cons, ih]

/-- Every event keeps two lists of labels in the order of how often a tag is there. -/
theorem tally_labelsNext_le {l l' : List Json} (h : tally tag l ≤ tally tag l') (e : Event) :
    tally tag (labelsNext l e) ≤ tally tag (labelsNext l' e) := by
  have happly : ∀ action, tally tag (LabelAction.apply l (action, e.get "label")) ≤
      tally tag (LabelAction.apply l' (action, e.get "label")) := by
    intro action
    by_cases htext : ∃ text, e.get "label" = .str text
    · obtain ⟨text, htext⟩ := htext
      rw [htext]
      cases action with
      | addLabel =>
        rw [LabelAction.tally_add, LabelAction.tally_add]
        split <;> omega
      | removeLabel =>
        rw [LabelAction.tally_remove, LabelAction.tally_remove]
        omega
    · have hx : ∀ text, e.get "label" ≠ .str text := fun text heq => htext ⟨text, heq⟩
      rwa [tally_apply_of_ne hx, tally_apply_of_ne hx]
  unfold labelsNext
  cases e.action <;> first | exact h | exact happly _

theorem tally_foldl_le : ∀ (events : List Event) {l l' : List Json},
    tally tag l ≤ tally tag l' →
      tally tag (events.foldl labelsNext l) ≤ tally tag (events.foldl labelsNext l')
  | [], _, _, h => h
  | e :: events, _, _, h => tally_foldl_le events (tally_labelsNext_le h e)

/-- **One more addition** of a label keeps it on the card. -/
theorem mem_labels_inserted (hact : e.action = .addLabel) (hlabel : e.get "label" = .str tag)
    (h : .str tag ∈ ((p ++ q).foldl Marks.next m).labels) :
    .str tag ∈ ((p ++ e :: q).foldl Marks.next m).labels := by
  rw [labels_foldl, List.foldl_append] at h ⊢
  rw [← tally_pos_iff] at h ⊢
  refine lt_of_lt_of_le h (tally_foldl_le q ?_)
  rw [show ∀ l, labelsNext l e = LabelAction.apply l (.addLabel, .str tag) from fun l => by
    simp [labelsNext, hact, hlabel], LabelAction.tally_add]
  split <;> omega

/-- **One more removal** of a label keeps it off the card. -/
theorem not_mem_labels_inserted (hact : e.action = .removeLabel)
    (hlabel : e.get "label" = .str tag)
    (h : .str tag ∉ ((p ++ q).foldl Marks.next m).labels) :
    .str tag ∉ ((p ++ e :: q).foldl Marks.next m).labels := by
  rw [labels_foldl, List.foldl_append] at h ⊢
  rw [← tally_eq_zero_iff] at h ⊢
  refine Nat.eq_zero_of_le_zero (le_trans (tally_foldl_le q ?_) h.le)
  rw [show ∀ l, labelsNext l e = LabelAction.apply l (.removeLabel, .str tag) from fun l => by
    simp [labelsNext, hact, hlabel], LabelAction.tally_remove]
  omega

/-- Links that give a key a value, or what other links give it, do so behind every event. -/
theorem linkOf_foldl {v : Json} : ∀ (events : List Event) {l l' : List (Json × Json)},
    linkOf key l' = some v ∨ linkOf key l' = linkOf key l →
      linkOf key (events.foldl linksNext l') = some v ∨
        linkOf key (events.foldl linksNext l') = linkOf key (events.foldl linksNext l)
  | [], _, _, h => h
  | e :: events, l, l', h => by
    refine linkOf_foldl events ?_
    rw [linkOf_linksNext, linkOf_linksNext]
    split
    · exact .inr rfl
    · exact h

/-- **One more link** keeps the value that a key has. -/
theorem linkOf_inserted {v : Json} (he : isLinkOf key e = true) (hv : e.get "link_value" = v)
    (h : linkOf key ((p ++ q).foldl Marks.next m).links = some v) :
    linkOf key ((p ++ e :: q).foldl Marks.next m).links = some v := by
  rw [links_foldl, List.foldl_append] at h ⊢
  have hnext : linkOf key (linksNext (p.foldl linksNext m.links) e) = some v := by
    rw [linkOf_linksNext, if_pos he, hv]
  rcases linkOf_foldl q (l := p.foldl linksNext m.links) (.inl hnext) with h' | h'
  · exact h'
  · exact h'.trans h

end

end SkCoord
