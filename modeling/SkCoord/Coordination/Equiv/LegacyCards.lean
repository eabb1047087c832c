import SkCoord.CardStore.Equiv.Placed
import SkCoord.CardStore.Equiv.Store
import SkCoord.Coordination.Kanban

/-!
# What the legacy cards depend on

Two reads of the legacy projection with the same task and agent files, overlay, archive index and
ITIL records list the same cards in the same order.  The store may amend criteria and dependencies,
but `Card.origin`, what an import takes its place from, differs only where one of the two has a
void (`firstCard_legacyCards`).
-/

namespace SkCoord

open Python

/-- The first card with an identifier. -/
def firstCard (cards : List Card) (cardId : String) : Option Card :=
  cards.find? fun c => c.id == cardId

section

variable {c : Card} {cardId : String} {cards : List Card}

theorem firstCard_cons_self (c : Card) (cards : List Card) :
    firstCard (c :: cards) c.id = some c := by
  unfold firstCard
  rw [List.find?_cons_of_pos]
  exact beq_self_eq_true c.id

theorem firstCard_cons_ne (cards : List Card) (h : cardId ≠ c.id) :
    firstCard (c :: cards) cardId = firstCard cards cardId := by
  unfold firstCard
  rw [List.find?_cons_of_neg]
  exact fun heq => h (beq_iff_eq.mp heq).symm

theorem id_of_firstCard (h : firstCard cards cardId = some c) : c.id = cardId := by
  unfold firstCard at h
  have hid := List.find?_some h
  exact beq_iff_eq.mp hid

theorem firstCard_ne_none (h : c ∈ cards) : firstCard cards c.id ≠ none := by
  intro hnone
  have hne := List.find?_eq_none.mp hnone c h
  exact hne (beq_self_eq_true c.id)

theorem mem_of_firstCard (h : firstCard cards cardId = some c) : c ∈ cards :=
  List.mem_of_find?_eq_some h

end

/-- Identifier, metadata and place of a card. -/
def Card.origin (c : Card) : String × Dict × Placement := (c.id, c.metaData, c.placement)

/-- The place in a list does not depend on what the origin leaves out. -/
theorem firstCard_origin (cards : List Card) (cardId : String) :
    (firstCard cards cardId).map Card.origin =
      (cards.map Card.origin).find? fun o => o.1 == cardId := by
  unfold firstCard
  rw [List.find?_map]
  rfl

/-! ### Tasks -/

/-- What the amendments of the store leave of a task. -/
def Task.origin (t : Task) : String × Dict := (t.id, t.metaData)

theorem map_zipWith_of_length {α β γ : Type} {f : α → β → α} {key : α → γ}
    (hf : ∀ a b, key (f a b) = key a) :
    ∀ {l : List α} {m : List β}, m.length = l.length →
      (List.zipWith f l m).map key = l.map key
  | [], [], _ => rfl
  | a :: l, b :: m, h => by
    rw [List.zipWith_cons_cons, List.map_cons, List.map_cons, hf,
      map_zipWith_of_length hf (Nat.succ.inj h)]

theorem length_of_mapM {α β : Type} {f : α → Except PyError β} :
    ∀ {l : List α} {m : List β}, l.mapM f = .ok m → m.length = l.length
  | [], m, h => by
    rw [List.mapM_nil, pure_eq_ok] at h
    rw [← h]
    rfl
  | a :: l, m, h => by
    rw [List.mapM_cons] at h
    obtain ⟨b, -, h⟩ := bind_eq_ok.mp h
    obtain ⟨bs, hbs, h⟩ := bind_eq_ok.mp h
    rw [← pure_eq_ok.mp h, List.length_cons, List.length_cons, length_of_mapM hbs]

/-- The amendments change criteria and dependencies alone. -/
theorem origin_legacyTasks {env : BoardEnv} {b : Board} {includeArchived : Bool}
    {tasks : List Task} (h : legacyTasks env b includeArchived = .ok tasks) :
    tasks.map Task.origin = (b.loadTasks env includeArchived).map Task.origin := by
  unfold legacyTasks at h
  obtain ⟨criteria, hcriteria, h⟩ := bind_eq_ok.mp h
  dsimp only at h
  have hfirst : (List.zipWith (fun (t : Task) c => { t with acceptanceCriteria := c })
      (b.loadTasks env includeArchived) criteria).map Task.origin =
      (b.loadTasks env includeArchived).map Task.origin :=
    @map_zipWith_of_length _ _ _ (fun (t : Task) c => { t with acceptanceCriteria := c })
      Task.origin (fun _ _ => rfl) _ _ (length_of_mapM hcriteria)
  split at h
  · rename_i dependencies hdependencies
    rw [← pure_eq_ok.mp h, ← hfirst]
    exact @map_zipWith_of_length _ _ _ (fun (t : Task) d => { t with dependencies := d })
      Task.origin (fun _ _ => rfl) _ _ (length_of_mapM hdependencies)
  · rw [← pure_eq_ok.mp h]
    exact hfirst

/-! ### Cards -/

/-- The origin of the card of a task. -/
def taskOrigin (archivedIds : List String) (agents : List AgentFile) (o : String × Dict) :
    String × Dict × Placement :=
  let v := legacyTaskView agents { id := o.1, title := "" } []
  (o.1, if v.status = .blocked then Assoc.set o.2 "blocked" (.bool true) else o.2,
    ⟨v.status.column, .int 0, jsonOfOption v.claimedBy, decide (o.1 ∈ archivedIds)⟩)

/-- The projected cards of two boards with the same files. -/
theorem origin_projectedCards {env : BoardEnv} {b : Board} {itil : List ItilRecord}
    {cards : List Card} (h : projectedCards env b itil true = .ok cards) :
    cards.map Card.origin =
      ((b.loadTasks env true).map Task.origin).map (taskOrigin b.archivedIds (b.loadAgents env)) ++
        itil.map (Card.origin ∘ cardFromItil) := by
  obtain ⟨tasks, htasks, h⟩ := bind_eq_ok.mp h
  rw [← pure_eq_ok.mp h, List.map_append, ← origin_legacyTasks htasks, List.map_map, List.map_map,
    List.map_map]
  rfl

section

variable {env : BoardEnv} {st : Store} {overlay : Assoc String Patch}

/-- The overlay on the first card with an identifier. -/
theorem firstCard_overlaid (cardId : String) : ∀ {out : List Card} {voided : List Bool},
    (out.mapM fun c => isVoidedCard env.env st c.id) = .ok voided →
      firstCard out cardId = none ∧
          firstCard (List.zipWith (overlaid overlay) out voided) cardId = none ∨
        ∃ c v, firstCard out cardId = some c ∧ isVoidedCard env.env st cardId = .ok v ∧
          firstCard (List.zipWith (overlaid overlay) out voided) cardId =
            some (overlaid overlay c v)
  | [], voided, h => .inl ⟨rfl, rfl⟩
  | c :: out, voided, h => by
    rw [List.mapM_cons] at h
    obtain ⟨v, hv, h⟩ := bind_eq_ok.mp h
    obtain ⟨vs, hvs, h⟩ := bind_eq_ok.mp h
    rw [← pure_eq_ok.mp h, List.zipWith_cons_cons]
    have hid : (overlaid overlay c v).id = c.id := by
      unfold overlaid
      split
      · rfl
      · split <;> rfl
    by_cases hne : cardId = c.id
    · refine .inr ⟨c, v, ?_, ?_, ?_⟩
      · rw [hne]
        exact firstCard_cons_self c out
      · rw [hne]
        exact hv
      · rw [hne, ← hid]
        exact firstCard_cons_self _ _
    · rw [firstCard_cons_ne out hne, firstCard_cons_ne _ (by rw [hid]; exact hne)]
      exact firstCard_overlaid cardId hvs

/-- The overlay sees of a card its origin. -/
theorem origin_overlaid {c c' : Card} (h : c'.origin = c.origin) (v : Bool) :
    (overlaid overlay c' v).origin = (overlaid overlay c v).origin := by
  obtain ⟨hid, h⟩ := Prod.mk.inj h
  obtain ⟨hmeta, h⟩ := Prod.mk.inj h
  obtain ⟨hstatus, horder, howner, harchived⟩ := Placement.mk.inj h
  unfold overlaid
  cases v with
  | true =>
    unfold Card.origin Card.placement
    rw [if_pos rfl, if_pos rfl]
    dsimp only
    rw [hid, hmeta, hstatus, horder]
  | false =>
    rw [if_neg Bool.false_ne_true, if_neg Bool.false_ne_true, hid]
    split
    · unfold Patch.patch Card.origin Card.placement
      dsimp only
      rw [hid, hmeta, hstatus, horder, howner, harchived]
    · exact Prod.ext hid (Prod.ext hmeta h)

end

/-! ### Two reads -/

namespace KanbanHome

variable {env : BoardEnv} {k k' : KanbanHome}

/-- Two homes with the same files; the clock of the second is not behind. -/
structure SameFiles (k k' : KanbanHome) : Prop where
  tasks : k'.board.tasks = k.board.tasks
  agents : k'.board.agents = k.board.agents
  archive : k'.archive = k.archive
  shards : k'.shards = k.shards
  itil : k'.itil = k.itil
  statusIds : k'.statusIds = k.statusIds
  ticks : k.board.ticks ≤ k'.board.ticks

theorem SameFiles.refl (k : KanbanHome) : k.SameFiles k := ⟨rfl, rfl, rfl, rfl, rfl, rfl, le_rfl⟩

theorem SameFiles.trans {k'' : KanbanHome} (h : k.SameFiles k') (h' : k'.SameFiles k'') :
    k.SameFiles k'' :=
  ⟨h'.tasks.trans h.tasks, h'.agents.trans h.agents, h'.archive.trans h.archive,
    h'.shards.trans h.shards, h'.itil.trans h.itil, h'.statusIds.trans h.statusIds,
    h.ticks.trans h'.ticks⟩

theorem SameFiles.overlay (h : k.SameFiles k') : k'.overlay env = k.overlay env := by
  show CardEventLog.readAll env.env k'.shards = CardEventLog.readAll env.env k.shards
  rw [h.shards]

theorem SameFiles.legacy (h : k.SameFiles k') : (k'.store env).legacy = (k.store env).legacy := by
  show loadLegacyMutations k'.archive (k'.overlay env) =
    loadLegacyMutations k.archive (k.overlay env)
  rw [h.archive, h.overlay]

theorem SameFiles.archivedIds (h : k.SameFiles k') :
    (k'.openBoard env).archivedIds = (k.openBoard env).archivedIds := by
  show ((k'.store env).legacy.filter _).map Prod.fst = ((k.store env).legacy.filter _).map Prod.fst
  rw [h.legacy]

theorem SameFiles.loadTasks (h : k.SameFiles k') (includeArchived : Bool) :
    (k'.openBoard env).loadTasks env includeArchived =
      (k.openBoard env).loadTasks env includeArchived := by
  have hfile : (k'.openBoard env).tasks = (k.openBoard env).tasks := h.tasks
  unfold Board.loadTasks
  rw [hfile, h.archivedIds]

theorem SameFiles.loadAgents (h : k.SameFiles k') :
    (k'.openBoard env).loadAgents env = (k.openBoard env).loadAgents env := by
  have hfile : (k'.openBoard env).agents = (k.openBoard env).agents := h.agents
  unfold Board.loadAgents
  rw [hfile]

theorem legacyCards_eq_ok {cards : List Card} (h : legacyCards env k true = .ok cards) :
    ∃ out voided, projectedCards env (k.openBoard env) k.itil true = .ok out ∧
      (out.mapM fun c => isVoidedCard env.env (k.store env) c.id) = .ok voided ∧
      List.zipWith (overlaid (foldOverlay (k.overlay env))) out voided = cards := by
  obtain ⟨out, hout, h⟩ := bind_eq_ok.mp h
  obtain ⟨voided, hvoided, h⟩ := bind_eq_ok.mp h
  exact ⟨out, voided, hout, hvoided, pure_eq_ok.mp h⟩

/-- The first legacy card with an identifier, in two reads of the same files. -/
theorem SameFiles.firstCard_legacyCards (hfiles : k.SameFiles k') {cards cards' : List Card}
    (h : legacyCards env k true = .ok cards) (h' : legacyCards env k' true = .ok cards')
    (cardId : String) :
    firstCard cards cardId = none ∧ firstCard cards' cardId = none ∨
      ∃ c c', firstCard cards cardId = some c ∧ firstCard cards' cardId = some c' ∧
        ((k'.store env).dir cardId = (k.store env).dir cardId → c'.origin = c.origin) := by
  obtain ⟨out, voided, hout, hvoided, h⟩ := legacyCards_eq_ok h
  obtain ⟨out', voided', hout', hvoided', h'⟩ := legacyCards_eq_ok h'
  -- the files give both reads the same cards
  have horigin : out'.map Card.origin = out.map Card.origin := by
    rw [origin_projectedCards hout', origin_projectedCards hout, hfiles.loadTasks,
      hfiles.archivedIds, hfiles.loadAgents, hfiles.itil]
  have hfirst : (firstCard out' cardId).map Card.origin = (firstCard out cardId).map Card.origin := by
    rw [firstCard_origin, firstCard_origin, horigin]
  rw [← h, ← h', hfiles.overlay]
  rcases firstCard_overlaid cardId hvoided with
    ⟨hnone, hcards⟩ | ⟨c, v, hsome, hv, hcards⟩
  · rw [hnone] at hfirst
    rcases firstCard_overlaid cardId hvoided' with ⟨-, hcards'⟩ | ⟨c', v', hsome', -⟩
    · exact .inl ⟨hcards, hcards'⟩
    · rw [hsome'] at hfirst
      cases hfirst
  · rw [hsome] at hfirst
    rcases firstCard_overlaid cardId hvoided' with
      ⟨hnone', -⟩ | ⟨c', v', hsome', hv', hcards'⟩
    · rw [hnone'] at hfirst
      cases hfirst
    · rw [hsome'] at hfirst
      refine .inr ⟨_, _, hcards, hcards', fun hdir => ?_⟩
      have hvoid : isVoidedCard env.env (k'.store env) cardId =
          isVoidedCard env.env (k.store env) cardId := by
        unfold isVoidedCard Store.readEvents
        rw [hdir]
      rw [hvoid, hv] at hv'
      cases hv'
      exact origin_overlaid (Option.some.inj hfirst) v

end KanbanHome

end SkCoord
