import SkCoord.Scheduler.Evidence
import SkCoord.CardStore.Equiv.Store
import SkCoord.Python.Latest

/-!
# What the readers of evidence see

Each reader keeps the last value of a key in an order of its own, so its answer is that of the latest
event among those that it reads (`Latest`).  The patch and the joined truth always agree
(`get?_currentLinks_dump`); the store and `load_evidence` agree with them under conditions on the events
(`readers_agree_iff`).
-/

namespace SkCoord

open Python

/-! ### The links of a folded card -/

/-- The fold, seen through the links. -/
theorem foldCard_links {cardId : String} {core : CardCore} {events : List Event} {s : FoldState}
    (h : foldCard cardId core events = .ok s) : s.card.links = events.foldl linksNext [] := by
  unfold foldCard at h
  obtain ⟨s₀, h0, h⟩ := bind_eq_ok.mp h
  rw [← (foldInit_births h0).links]
  exact foldlM_project (fun s : FoldState => s.card.links) linksNext
    (fun _ _ _ hstep => (FoldState.step_writes hstep).links) events s₀ s h

/-- The value of a key among links. -/
def linkOf (key : String) (links : List (Json × Json)) : Option Json :=
  (links.find? fun p => p.1.pyEq (.str key)).map Prod.snd

theorem linkOf_cons (key : String) (k v : Json) (links : List (Json × Json)) :
    linkOf key ((k, v) :: links) = if k.pyEq (.str key) then some v else linkOf key links := by
  unfold linkOf
  rw [List.find?_cons]
  cases k.pyEq (.str key) <;> rfl

theorem linkOf_setLink (key : String) (k v : Json) : ∀ links : List (Json × Json),
    linkOf key (Card.setLink k v links) =
      if k.pyEq (.str key) then some v else linkOf key links
  | [] => linkOf_cons key k v []
  | (k', w) :: links => by
    have ih := linkOf_setLink key k v links
    unfold Card.setLink
    by_cases heq : k'.pyEq k = true
    · rw [if_pos heq, linkOf_cons, linkOf_cons]
      -- equal keys are both the text `key`, or both not
      by_cases hk : k.pyEq (.str key) = true
      · have hk' : k'.pyEq (.str key) = true := by rwa [(Json.pyEq_str_right_iff key k).mp hk] at heq
        rw [if_pos hk, if_pos hk']
      · have hk' : ¬ k'.pyEq (.str key) = true := by
          intro hc
          rw [(Json.pyEq_str_right_iff key k').mp hc, Json.pyEq_str_iff] at heq
          rw [heq, Json.pyEq_refl] at hk
          exact hk rfl
        rw [if_neg hk, if_neg hk', if_neg hk']
    · rw [if_neg heq, linkOf_cons, linkOf_cons, ih]
      by_cases hk' : k'.pyEq (.str key) = true
      · have hk : ¬ k.pyEq (.str key) = true := by
          intro hc
          rw [(Json.pyEq_str_right_iff key k).mp hc] at heq
          exact heq hk'
        rw [if_pos hk', if_pos hk', if_neg hk]
      · rw [if_neg hk', if_neg hk']

/-- A link event of a key. -/
def isLinkOf (key : String) (e : Event) : Bool :=
  e.action == .link && (e.get "link_key").pyEq (.str key)

theorem linkOf_linksNext (key : String) (links : List (Json × Json)) (e : Event) :
    linkOf key (linksNext links e) =
      if isLinkOf key e then some (e.get "link_value") else linkOf key links := by
  unfold linksNext isLinkOf
  by_cases hact : e.action = .link
  · by_cases hkey : (e.get "link_key").pyEq (.str key) = true
    · have hnone : (e.get "link_key").isNone = false := by
        rw [(Json.pyEq_str_right_iff key _).mp hkey]
        rfl
      rw [if_pos ⟨hact, hnone⟩, linkOf_setLink, if_pos hkey, hact, hkey]
      rfl
    · have hneg : ¬ (e.action == .link && (e.get "link_key").pyEq (.str key)) = true := by
        rw [Bool.and_eq_true]
        exact fun hand => hkey hand.2
      rw [if_neg hneg]
      split
      · rw [linkOf_setLink, if_neg hkey]
      · rfl
  · have hneg : ¬ (e.action == .link && (e.get "link_key").pyEq (.str key)) = true := by
      rw [Bool.and_eq_true, beq_iff_eq]
      exact fun hand => hact hand.1
    rw [if_neg fun hand => hact hand.1, if_neg hneg]

/-! ### The store -/

/-- The date and the value of a link event. -/
def evidenceOf (e : Event) : SortKey3 × Json := (Store.eventKey e, e.get "link_value")

/-- The date and the value of an overlay event, as the store sorts it. -/
def CardEvent.evidence (e : CardEvent) : SortKey3 × Json :=
  (.ofValues (.str e.ts) (.str e.writer) (.int e.seq), jsonOfOption e.linkValue)

/-- The overlay events of a card that bind a key by one of some actions. -/
def bindings (actions : List String) (overlay : List CardEvent) (cardId key : String) :
    List CardEvent :=
  overlay.filter fun e => e.cardId = cardId && actions.contains e.action && e.linkKey = some key

variable {env : Env} {st : Store} {cardId key : String}

/-- What a store reads of a key is the value of the latest of its link events. -/
theorem fold_link {c : Card} (h : st.fold env cardId = .ok (some c)) :
    c.link key = (latest (fun a b : SortKey3 × Json => a.1 ≤ b.1)
      (((Store.logEvents (st.dir cardId) ++ st.legacyEvents cardId).filter (isLinkOf key)).map
        evidenceOf)).map Prod.snd := by
  obtain ⟨core, events, s, -, hevents, hs, rfl⟩ := Store.fold_eq_some.mp h
  have hview : linkOf key s.card.links =
      ((events.filter (isLinkOf key)).getLast?).map fun e => e.get "link_value" := by
    rw [foldCard_links hs, foldl_last (linkOf_linksNext key) events []]
    exact Option.or_none
  have hlast : (events.filter (isLinkOf key)).getLast? =
      latest (fun a b => Store.eventKey a ≤ Store.eventKey b)
        ((Store.logEvents (st.dir cardId) ++ st.legacyEvents cardId).filter (isLinkOf key)) := by
    unfold Store.mergedEvents at hevents
    obtain ⟨evs, hevs, hevents⟩ := bind_eq_ok.mp hevents
    rw [Store.readEvents_eq hevs] at hevents
    split at hevents
    · rename_i hempty
      rw [← pure_eq_ok.mp hevents, List.isEmpty_iff.mp hempty, List.append_nil,
        getLast?_filter_insertionSort]
    · rw [sortByKey_eq_ok hevents, getLast?_filter_insertionSort, List.filter_append,
        filter_insertionSort, latest_insertionSort_append, ← List.filter_append]
  show linkOf key s.card.links = _
  rw [hview, hlast, latest_map (r := fun a b => Store.eventKey a ≤ Store.eventKey b) evidenceOf
    fun _ _ => Iff.rfl]
  cases latest (fun a b => Store.eventKey a ≤ Store.eventKey b) _ <;> rfl

theorem nodup_payload (e : CardEvent) :
    (Assoc.keys [("column", e.column.map Json.str), ("order", e.order.map Json.int),
      ("priority", e.priority.map Json.str), ("swimlane", e.swimlane.map Json.str),
      ("label", e.label.map Json.str), ("link_key", e.linkKey.map Json.str),
      ("link_value", e.linkValue.map Json.str), ("owner", e.owner.map Json.str),
      ("title", e.title.map Json.str), ("description", e.description.map Json.str)]).Nodup := by
  show ["column", "order", "priority", "swimlane", "label", "link_key", "link_value", "owner", "title",
    "description"].Nodup
  decide

theorem get_payload_linkKey (e : CardEvent) :
    Dict.get e.payload "link_key" = jsonOfOption e.linkKey := by
  have hget := Assoc.get?_filterMap_some "link_key" _ (nodup_payload e)
  have hkey : Assoc.get? e.payload "link_key" = (some (e.linkKey.map Json.str)).join := hget
  rw [Dict.get, hkey]
  cases e.linkKey <;> rfl

theorem get_payload_linkValue (e : CardEvent) :
    Dict.get e.payload "link_value" = jsonOfOption e.linkValue := by
  have hget := Assoc.get?_filterMap_some "link_value" _ (nodup_payload e)
  have hkey : Assoc.get? e.payload "link_value" = (some (e.linkValue.map Json.str)).join := hget
  rw [Dict.get, hkey]
  cases e.linkValue <;> rfl

/-- The mutation of an overlay event is a link of the key when the event binds it. -/
theorem isLinkOf_overlayMutation {e : CardEvent} {m : LegacyMutation} (h : overlayMutation e = some m) :
    isLinkOf key m.toEvent =
      (["link", "verdict"].contains e.action && decide (e.linkKey = some key)) := by
  obtain ⟨action, hact, rfl⟩ := Option.map_eq_some_iff.mp h
  have hkey : (Dict.get e.payload "link_key").pyEq (.str key) = decide (e.linkKey = some key) := by
    rw [get_payload_linkKey]
    cases e.linkKey with
    | none => rfl
    | some k =>
      show (k == key) = decide (some k = some key)
      by_cases hk : k = key
      · rw [decide_eq_true (congrArg some hk), beq_iff_eq.mpr hk]
      · rw [decide_eq_false fun h => hk (Option.some.inj h), beq_eq_false_iff_ne.mpr hk]
  have hlink : (Action.ofString action.value == .link) = ["link", "verdict"].contains e.action := by
    unfold overlayToStoreAction at hact
    split at hact
    all_goals
      rename_i heq
      first
        | rw [heq]; cases hact; rfl
        | cases hact
  show (Action.ofString action.value == .link && (Dict.get e.payload "link_key").pyEq (.str key)) = _
  rw [hkey, hlink]

theorem evidenceOf_overlayMutation {e : CardEvent} {m : LegacyMutation}
    (h : overlayMutation e = some m) : evidenceOf m.toEvent = e.evidence := by
  obtain ⟨action, -, rfl⟩ := Option.map_eq_some_iff.mp h
  exact congrArg (Prod.mk _) (get_payload_linkValue e)

/-- The legacy events of a card are the mutations about it. -/
theorem legacyEvents_loaded (cards : Assoc String CardDir) (archive : List ArchiveEntry)
    (overlay : List CardEvent) :
    ({ cards := cards, legacy := loadLegacyMutations archive overlay } : Store).legacyEvents cardId =
      (Assoc.valuesOf cardId (legacyMutations archive overlay)).map LegacyMutation.toEvent := by
  have hcache : (Assoc.get? (loadLegacyMutations archive overlay) cardId).getD [] =
      Assoc.valuesOf cardId (legacyMutations archive overlay) :=
    Assoc.get?_foldl_addValue cardId (legacyMutations archive overlay) []
  unfold Store.legacyEvents
  dsimp only
  rw [hcache]

/-- The links that the store takes from the overlay. -/
theorem map_legacyEvents (cards : Assoc String CardDir) (archive : List ArchiveEntry)
    (overlay : List CardEvent) :
    ((({ cards := cards, legacy := loadLegacyMutations archive overlay } : Store).legacyEvents
      cardId).filter (isLinkOf key)).map evidenceOf =
      (bindings ["link", "verdict"] overlay cardId key).map CardEvent.evidence := by
  rw [legacyEvents_loaded, legacyMutations, Assoc.valuesOf_append, List.map_append,
    List.filter_append, List.map_append]
  -- the archive index makes no links
  have harchive : ∀ l : List ArchiveEntry,
      ((Assoc.valuesOf cardId (l.map fun entry => (entry.id, archiveMutation entry))).map
        LegacyMutation.toEvent).filter (isLinkOf key) = [] := by
    intro l
    rw [List.filter_eq_nil_iff]
    intro e he
    obtain ⟨m, hm, rfl⟩ := List.mem_map.mp he
    obtain ⟨p, hp, rfl⟩ := List.mem_map.mp hm
    obtain ⟨entry, -, rfl⟩ := List.mem_map.mp (List.mem_filter.mp hp).1
    exact Bool.false_ne_true
  rw [harchive, List.map_nil, List.nil_append]
  clear harchive
  induction overlay with
  | nil => rfl
  | cons e overlay ih =>
    unfold bindings at ih ⊢
    rw [List.filter_cons]
    cases hm : overlayMutation e with
    | none =>
      have hact : ["link", "verdict"].contains e.action = false := by
        have hnone := Option.map_eq_none_iff.mp hm
        by_contra hc
        have hmem := List.contains_iff_mem.mp (Bool.eq_true_of_not_eq_false hc)
        rcases List.mem_cons.mp hmem with heq | hmem
        · rw [heq] at hnone
          cases hnone
        · rw [List.mem_singleton.mp hmem] at hnone
          cases hnone
      rw [List.filterMap_cons_none (by rw [hm]; rfl), ih, hact, Bool.and_false, Bool.false_and]
      rfl
    | some m =>
      rw [List.filterMap_cons_some (by rw [hm]; rfl)]
      by_cases hid : e.cardId = cardId
      · have hcons : ∀ l : List (String × LegacyMutation),
            Assoc.valuesOf cardId ((e.cardId, m) :: l) = m :: Assoc.valuesOf cardId l := by
          intro l
          rw [Assoc.valuesOf, List.filter_cons_of_pos (by simpa using hid)]
          rfl
        rw [hcons, List.map_cons, List.filter_cons, isLinkOf_overlayMutation hm, Bool.and_assoc,
          decide_eq_true hid, Bool.true_and]
        split
        · rw [List.map_cons, List.map_cons, ih, evidenceOf_overlayMutation hm]
        · exact ih
      · rw [Assoc.valuesOf_cons_of_ne hid, ih, decide_eq_false hid, Bool.false_and, Bool.false_and]
        rfl

/-! ### The patch -/

theorem links_apply (p : Patch) (e : CardEvent) :
    (p.apply e).links =
      if e.action = "link" then e.linkKey.elim p.links fun key => Assoc.set p.links key e.linkValue
      else p.links := by
  unfold Patch.apply
  split
  case h_6 heq =>
    rw [if_pos heq]
    cases e.linkKey <;> rfl
  case h_10 hlink _ _ _ => rw [if_neg fun heq => hlink heq]
  case h_4 heq =>
    rw [if_neg (by rw [heq]; decide)]
    split
    · split <;> rfl
    · rfl
  case h_7 heq =>
    have hlink : ¬ e.action = "link" := by
      rw [heq]
      decide
    rw [if_neg hlink]
    split <;> rfl
  all_goals
    rename_i heq
    rw [if_neg (by rw [heq]; decide)]

/-- A patch keeps the value of the latest link event: the fold sets the key at each link event of
the card and leaves it alone at every other event, so the last one in the sorted overlay stands. -/
theorem patchLink_eq (overlay : List CardEvent) (cardId key : String) :
    patchLink overlay cardId key =
      (latest (fun a b : CardEvent => a.order3 ≤ b.order3)
        (bindings ["link"] overlay cardId key)).map fun e => jsonOfOption e.linkValue := by
  -- What the patches show of the key.
  let view : Assoc String Patch → Option Json := fun patches =>
    (Assoc.get? patches cardId).bind fun p => (Assoc.get? p.links key).map jsonOfOption
  -- One event sets the view or leaves it.
  have hstep : ∀ (patches : Assoc String Patch) (e : CardEvent),
      view (Assoc.set patches e.cardId (((Assoc.get? patches e.cardId).getD {}).apply e)) =
        if decide (e.cardId = cardId) && ["link"].contains e.action && decide (e.linkKey = some key)
          then some (jsonOfOption e.linkValue) else view patches := by
    intro patches e
    show (Assoc.get? (Assoc.set patches e.cardId _) cardId).bind _ = _
    rw [Assoc.get?_set]
    by_cases hid : cardId = e.cardId
    · rw [if_pos hid, decide_eq_true hid.symm, Bool.true_and, ← hid]
      show (Assoc.get? (((Assoc.get? patches cardId).getD {}).apply e).links key).map jsonOfOption = _
      have hbefore : (Assoc.get? ((Assoc.get? patches cardId).getD {}).links key).map jsonOfOption =
          view patches := by
        show _ = (Assoc.get? patches cardId).bind _
        cases Assoc.get? patches cardId <;> rfl
      rw [links_apply]
      by_cases hact : e.action = "link"
      · rw [if_pos hact, hact]
        cases hkey : e.linkKey with
        | none => exact hbefore
        | some k =>
          show (Assoc.get? (Assoc.set _ k e.linkValue) key).map jsonOfOption = _
          rw [Assoc.get?_set]
          by_cases hk : key = k
          · rw [if_pos hk, hk, decide_eq_true rfl]
            rfl
          · rw [if_neg hk, decide_eq_false fun h => hk (Option.some.inj h).symm, Bool.and_false]
            exact hbefore
      · have hcontains : ["link"].contains e.action = false := by
          rw [List.contains_eq_mem]
          exact decide_eq_false fun hmem => hact (List.mem_singleton.mp hmem)
        rw [if_neg hact, hcontains, Bool.false_and]
        exact hbefore
    · rw [if_neg hid, decide_eq_false fun h => hid h.symm, Bool.false_and, Bool.false_and]
      rfl
  have hfold := foldl_last hstep (sortedOverlay overlay) []
  show view (foldOverlay overlay) = _
  rw [foldOverlay, hfold]
  show Option.or _ none = _
  rw [Option.or_none, sortedOverlay, getLast?_filter_insertionSort]
  rfl

/-! ### The joined truth -/

theorem get?_currentLinks (events : List Event) :
    Assoc.get? (currentLinks env events) key =
      (latest (fun a b => eventOrder env a ≤ eventOrder env b) (events.filter fun e =>
        (Dict.get e "action").pyEq (.str "link") && (Dict.get e "link_key").pyEq (.str key))).map
        fun e => env.format ((Dict.get e "link_value").orElse (.str "")) := by
  unfold currentLinks
  refine (@foldl_last Event (Assoc String String) String _ (fun links => Assoc.get? links key)
    (fun e => (Dict.get e "action").pyEq (.str "link") && (Dict.get e "link_key").pyEq (.str key))
    (fun e => env.format ((Dict.get e "link_value").orElse (.str ""))) ?_
    (sortedEvents env events) []).trans ?_
  · intro links e
    cases hkey : Dict.get e "link_key" with
    | str k =>
      cases hact : (Dict.get e "action").pyEq (.str "link") with
      | false => rfl
      | true =>
        show Assoc.get? (Assoc.set links k _) key = _
        rw [Assoc.get?_set, Bool.true_and]
        by_cases hk : key = k
        · rw [if_pos hk, hk, if_pos (Json.pyEq_refl _)]
        · rw [if_neg hk, if_neg]
          rw [Json.pyEq_str_iff]
          exact fun h => hk (Json.str.inj h)
    | null => cases (Dict.get e "action").pyEq (.str "link") <;> rfl
    | bool b => cases (Dict.get e "action").pyEq (.str "link") <;> rfl
    | int i => cases (Dict.get e "action").pyEq (.str "link") <;> rfl
    | float x => cases (Dict.get e "action").pyEq (.str "link") <;> rfl
    | arr l => cases (Dict.get e "action").pyEq (.str "link") <;> rfl
    | obj d => cases (Dict.get e "action").pyEq (.str "link") <;> rfl
  · show Option.or _ none = _
    rw [Option.or_none, sortedEvents, getLast?_filter_insertionSort]

/-- The annotation of a key that is marked as one of the overlay has the value of the overlay. -/
theorem find?_joinAnnotations (authoritative legacy : Assoc String String) (key : String) :
    ((joinAnnotations authoritative legacy).find? fun a => a.key = key && a.legacy).map
      (fun a => a.value) = Assoc.get? legacy key := by
  cases hfind : (joinAnnotations authoritative legacy).find? fun a => a.key = key && a.legacy with
  | some a =>
    have hmem := List.mem_of_find?_eq_some hfind
    have hok := List.find?_some hfind
    obtain ⟨p, -, rfl⟩ := List.mem_map.mp hmem
    obtain ⟨hkey, hlegacy⟩ := Bool.and_eq_true_iff.mp hok
    have hp : p.1 = key := of_decide_eq_true hkey
    rw [← hp]
    exact (beq_iff_eq.mp hlegacy).symm
  | none =>
    cases hget : Assoc.get? legacy key with
    | none => rfl
    | some v =>
      rw [List.find?_eq_none] at hfind
      have hmem : (key, v) ∈ (authoritative ++ legacy).dedup.insertionSort
          fun x y => toLex x ≤ toLex y := by
        rw [List.mem_insertionSort, List.mem_dedup]
        exact List.mem_append_right _ (Assoc.mem_of_get? hget)
      have hnot := hfind _ (List.mem_map.mpr ⟨_, hmem, rfl⟩)
      refine absurd ?_ hnot
      dsimp only
      rw [decide_eq_true rfl, hget, Bool.true_and]
      exact beq_self_eq_true _

theorem get_dump_action (e : CardEvent) : Dict.get e.dump "action" = .str e.action := rfl

theorem get_dump_linkKey (e : CardEvent) :
    Dict.get e.dump "link_key" = (e.linkKey.map Json.str).getD .null := rfl

/-- The links that the joined truth takes from the overlay are those of the patch. -/
theorem get?_currentLinks_dump (overlay : List CardEvent)
    (hvalue : ∀ e ∈ overlay, e.action = "link" → e.linkValue ≠ none) :
    (Assoc.get? (currentLinks env ((overlay.filter fun e => e.cardId = cardId).map CardEvent.dump))
      key).map Json.str = patchLink overlay cardId key := by
  have hbind : ((overlay.filter fun e => e.cardId = cardId).map CardEvent.dump).filter (fun e =>
      (Dict.get e "action").pyEq (.str "link") && (Dict.get e "link_key").pyEq (.str key)) =
      (bindings ["link"] overlay cardId key).map CardEvent.dump := by
    rw [List.filter_map, List.filter_filter]
    unfold bindings
    congr 1
    refine List.filter_congr fun e _ => ?_
    have hact : (Dict.get e.dump "action").pyEq (.str "link") = ["link"].contains e.action := by
      rw [get_dump_action]
      show (e.action == "link") = (e.action == "link" || false)
      rw [Bool.or_false]
    have hkey : (Dict.get e.dump "link_key").pyEq (.str key) = decide (e.linkKey = some key) := by
      rw [get_dump_linkKey]
      cases e.linkKey with
      | none => rfl
      | some k =>
        show (k == key) = decide (some k = some key)
        by_cases hk : k = key
        · rw [decide_eq_true (congrArg some hk), beq_iff_eq.mpr hk]
        · rw [decide_eq_false fun h => hk (Option.some.inj h), beq_eq_false_iff_ne.mpr hk]
    show ((Dict.get e.dump "action").pyEq (.str "link") &&
      (Dict.get e.dump "link_key").pyEq (.str key) && _) = _
    rw [hact, hkey, Bool.and_comm, Bool.and_assoc]
  rw [get?_currentLinks, hbind, patchLink_eq,
    latest_map (r := fun a b : CardEvent => a.order3 ≤ b.order3) CardEvent.dump fun _ _ => Iff.rfl]
  cases hlatest : latest (fun a b : CardEvent => a.order3 ≤ b.order3)
    (bindings ["link"] overlay cardId key) with
  | none => rfl
  | some e =>
    -- an accepted link has a value
    obtain ⟨hmem, hbinds⟩ := List.mem_filter.mp (mem_of_latest _ hlatest)
    have hact : e.action = "link" := by
      have hcontains := (Bool.and_eq_true_iff.mp (Bool.and_eq_true_iff.mp hbinds).1).2
      exact List.mem_singleton.mp (List.contains_iff_mem.mp hcontains)
    obtain ⟨v, hv⟩ := Option.ne_none_iff_exists'.mp (hvalue e hmem hact)
    have hget : Dict.get e.dump "link_value" = .str v := by
      show (e.linkValue.map Json.str).getD .null = _
      rw [hv]
      rfl
    show some (Json.str (env.format ((Dict.get e.dump "link_value").orElse (.str "")))) =
      some (jsonOfOption e.linkValue)
    rw [hget, hv]
    by_cases hempty : v = ""
    · rw [hempty]
      rfl
    · have htruthy : (Json.str v).truthy = true := by
        simpa [Json.truthy] using hempty
      have horElse : (Json.str v).orElse (.str "") = .str v := by
        rw [Json.orElse, if_pos htruthy]
      rw [horElse]
      rfl

/-! ### `load_evidence` -/

/-- The evidence reader keeps the value of the latest link event that is not broken, in the order of
its rows. -/
theorem evidenceLink_eq (shards : Assoc String (List CardEvent)) (cardId key : String) :
    evidenceLink (loadEvidence shards) cardId key =
      (latest (fun a b : CardEvent => a.row.order ≤ b.row.order)
        ((bindings ["link"] (eventsInOrder shards) cardId key).filter fun e => !e.isBroken)).map
        fun e => jsonOfOption e.linkValue := by
  unfold evidenceLink loadEvidence
  dsimp only
  rw [Assoc.get?_map fun l : List EvidenceRow => l.insertionSort fun x y => x.order ≤ y.order]
  have hrows := Assoc.get?_foldl_addValue cardId ((eventsInOrder shards).filterMap evidenceRow) []
  -- The rows of a card are the rows of its events, sorted.
  have hget : ((Assoc.get? (((eventsInOrder shards).filterMap evidenceRow).foldl Assoc.addValue [])
      cardId).map fun l => l.insertionSort fun x y : EvidenceRow => x.order ≤ y.order).getD [] =
      (Assoc.valuesOf cardId ((eventsInOrder shards).filterMap evidenceRow)).insertionSort
        fun x y => x.order ≤ y.order := by
    rw [← List.nil_append (Assoc.valuesOf cardId _)]
    rw [show ([] : List EvidenceRow) = (Assoc.get? ([] : Assoc String (List EvidenceRow)) cardId).getD []
      from rfl, ← hrows]
    cases Assoc.get? (((eventsInOrder shards).filterMap evidenceRow).foldl Assoc.addValue []) cardId
      <;> rfl
  -- A row of the card with the key is a binding of the card that is not broken; the induction is on
  -- the overlay.
  have hbind : ∀ overlay : List CardEvent,
      (Assoc.valuesOf cardId (overlay.filterMap evidenceRow)).filter
        (fun r => decide (r.rawKey = some key)) =
      ((bindings ["link"] overlay cardId key).filter fun e => !e.isBroken).map CardEvent.row := by
    intro overlay
    induction overlay with
    | nil => rfl
    | cons e overlay ih =>
      unfold bindings at ih ⊢
      rw [List.filter_cons]
      by_cases hrow : e.action = "link" ∧ e.isBroken = false
      · have hevidence : evidenceRow e = some (e.cardId, e.row) := if_pos hrow
        rw [List.filterMap_cons_some hevidence, hrow.1]
        by_cases hid : e.cardId = cardId
        · have hcons : ∀ l : List (String × EvidenceRow),
              Assoc.valuesOf cardId ((e.cardId, e.row) :: l) = e.row :: Assoc.valuesOf cardId l := by
            intro l
            rw [Assoc.valuesOf, List.filter_cons_of_pos (by simpa using hid)]
            rfl
          rw [hcons, List.filter_cons, decide_eq_true hid]
          show (if decide (e.linkKey = some key) = true then _ else _) =
            ((if decide (e.linkKey = some key) = true then _ else _ : List CardEvent).filter _).map _
          split
          · rw [List.filter_cons_of_pos (by rw [hrow.2]; rfl), List.map_cons, ih]
          · exact ih
        · rw [Assoc.valuesOf_cons_of_ne hid, ih, decide_eq_false hid, Bool.false_and, Bool.false_and]
          rfl
      · have hevidence : evidenceRow e = none := if_neg hrow
        rw [List.filterMap_cons_none hevidence, ih]
        split
        · rename_i hbinds
          have hact : e.action = "link" := by
            have hcontains := (Bool.and_eq_true_iff.mp (Bool.and_eq_true_iff.mp hbinds).1).2
            exact List.mem_singleton.mp (List.contains_iff_mem.mp hcontains)
          have hbroken : e.isBroken = true := by
            by_contra hc
            exact hrow ⟨hact, Bool.eq_false_iff.mpr hc⟩
          rw [List.filter_cons_of_neg (by rw [hbroken]; exact Bool.false_ne_true)]
        · rfl
  rw [hget, getLast?_filter_insertionSort, hbind,
    latest_map (r := fun a b : CardEvent => a.row.order ≤ b.row.order) CardEvent.row fun _ _ => Iff.rfl]
  cases latest (fun a b : CardEvent => a.row.order ≤ b.row.order) _ <;> rfl

/-- The annotations of a joined truth. -/
theorem annotations_readJoinedTruth {home : Home} {t : JoinedCardTruth}
    (h : readJoinedTruth env home cardId = .ok t) :
    ∃ authoritative, t.annotations = joinAnnotations authoritative
      (currentLinks env (((home.overlay env).filter fun e => e.cardId = cardId).map CardEvent.dump)) := by
  unfold readJoinedTruth joinTruth at h
  obtain ⟨card?, -, h⟩ := bind_eq_ok.mp h
  cases card? with
  | none => cases h
  | some card =>
    obtain ⟨core, -, h⟩ := bind_eq_ok.mp h
    obtain ⟨events, -, h⟩ := bind_eq_ok.mp h
    obtain ⟨claim, -, h⟩ := bind_eq_ok.mp h
    rw [← pure_eq_ok.mp h]
    exact ⟨_, rfl⟩

/-! ### The four readers -/

/-- A check that raises is passed when its condition does not hold. -/
theorem of_guard {β γ : Type} {p : Prop} [Decidable p] {x : PyError} {f : β → Except PyError γ}
    {y : Except PyError γ} {a : γ} (h : (if p then (throw x : Except PyError β) >>= f else y) = .ok a) :
    ¬ p ∧ y = .ok a := by
  by_cases hp : p
  · rw [if_pos hp] at h
    cases h
  · rw [if_neg hp] at h
    exact ⟨hp, h⟩

theorem linkValue_of_validate {e : CardEvent} (h : e.validate env true = .ok ())
    (hact : e.action = "link") : e.linkValue ≠ none := by
  have hsingle : e.singleField = none := by
    unfold CardEvent.singleField
    rw [hact]
    rfl
  unfold CardEvent.validate at h
  rw [hsingle] at h
  -- the checks in front of that of the links
  obtain ⟨-, h⟩ := of_guard h
  obtain ⟨-, h⟩ := of_guard h
  obtain ⟨-, h⟩ := of_guard h
  obtain ⟨-, h⟩ := of_guard h
  obtain ⟨hlink, -⟩ := of_guard h
  intro hnone
  refine hlink ⟨Or.inl hact, ?_⟩
  rw [hnone]
  exact Bool.or_true _

section

variable {cards : Assoc String CardDir} {archive : List ArchiveEntry}
  {shards : Assoc String (List (AcceptedEvent env))}

/-- The overlay holds the events of the shards in the order of their files. -/
theorem overlay_evidenceHome :
    (evidenceHome cards archive shards).overlay env = eventsInOrder (shardEvents shards) := by
  have hadmitted : ∀ l : List (AcceptedEvent env),
      (l.map fun e => (some e.1 : OverlayLine)).filterMap (admitted env) = l.map Subtype.val := by
    intro l
    induction l with
    | nil => rfl
    | cons e l ih =>
      have he : admitted env (some e.1) = some e.1 := Option.filter_some_pos e.2
      rw [List.map_cons, List.filterMap_cons_some he, ih]
      rfl
  unfold Home.overlay CardEventLog.readAll eventsInOrder evidenceHome shardEvents
  dsimp only
  rw [List.filter_map, List.filter_map]
  -- both sort the same names
  have hsort : ∀ {ν : Type} (f : List (AcceptedEvent env) → ν)
      (l : List (String × List (AcceptedEvent env))),
      (l.map fun p => (p.1, f p.2)).insertionSort (fun p q => p.1 ≤ q.1) =
        (l.insertionSort fun p q => p.1 ≤ q.1).map fun p => (p.1, f p.2) := by
    intro ν f l
    exact (List.map_insertionSort (fun p q => p.1 ≤ q.1) (fun p q => p.1 ≤ q.1)
      (fun p => (p.1, f p.2)) l fun _ _ _ _ => Iff.rfl).symm
  rw [hsort (fun l => l.map fun e => (some e.1 : OverlayLine)), hsort (fun l => l.map Subtype.val),
    List.flatMap_map, List.flatMap_map]
  congr 1
  funext p
  exact hadmitted p.2

theorem linkValue_of_accepted {e : CardEvent} (he : e ∈ eventsInOrder (shardEvents shards))
    (hact : e.action = "link") : e.linkValue ≠ none := by
  obtain ⟨p, hp, hmem⟩ := List.mem_flatMap.mp he
  rw [List.mem_insertionSort] at hp
  obtain ⟨q, -, rfl⟩ := List.mem_map.mp (List.mem_filter.mp hp).1
  obtain ⟨a, -, rfl⟩ := List.mem_map.mp hmem
  obtain ⟨⟨⟩, hok⟩ := isOk_iff.mp a.2
  exact linkValue_of_validate hok hact

end

/-- No verdict and no link of the card itself is read in place of the last link of the overlay: the
latest of all the events that bind the key has the value of the latest link of the overlay. -/
def NotOvertaken (st : Store) (overlay : List CardEvent) (cardId key : String) : Prop :=
  (latest (fun a b : SortKey3 × Json => a.1 ≤ b.1)
      (((Store.logEvents (st.dir cardId)).filter (isLinkOf key)).map evidenceOf ++
        (bindings ["link", "verdict"] overlay cardId key).map CardEvent.evidence)).map Prod.snd =
    (latest (fun a b : CardEvent => a.order3 ≤ b.order3)
      (bindings ["link"] overlay cardId key)).map fun e => jsonOfOption e.linkValue

/-- The latest link of the overlay by time, writer and number has the value of the latest by time
and identifier among those whose line is not broken. -/
def LevelAlike (overlay : List CardEvent) (cardId key : String) : Prop :=
  (latest (fun a b : CardEvent => a.order3 ≤ b.order3)
      (bindings ["link"] overlay cardId key)).map (fun e => jsonOfOption e.linkValue) =
    (latest (fun a b : CardEvent => a.row.order ≤ b.row.order)
      ((bindings ["link"] overlay cardId key).filter fun e => !e.isBroken)).map fun e =>
        jsonOfOption e.linkValue

/-- The four readers see one value of every key exactly when, for every key, neither a verdict nor a
link of the card itself is read in place of the last link of the overlay, and the two orders of the
overlay end with one value. -/
theorem readers_agree_iff (cards : Assoc String CardDir) (archive : List ArchiveEntry)
    (shards : Assoc String (List (AcceptedEvent env))) (cardId : String) {c : Card}
    {t : JoinedCardTruth}
    (hfold : ((evidenceHome cards archive shards).store env).fold env cardId = .ok (some c))
    (hjoin : readJoinedTruth env (evidenceHome cards archive shards) cardId = .ok t) :
    (∀ key,
        c.link key = patchLink ((evidenceHome cards archive shards).overlay env) cardId key ∧
        patchLink ((evidenceHome cards archive shards).overlay env) cardId key = t.link key ∧
        t.link key = evidenceLink (loadEvidence (shardEvents shards)) cardId key) ↔
      ∀ key,
        NotOvertaken ((evidenceHome cards archive shards).store env)
          ((evidenceHome cards archive shards).overlay env) cardId key ∧
        LevelAlike ((evidenceHome cards archive shards).overlay env) cardId key := by
  refine forall_congr' fun key => ?_
  -- The fold of the card reads its own links and the overlay as one list of events.
  have hstore : c.link key = (latest (fun a b : SortKey3 × Json => a.1 ≤ b.1)
      (((Store.logEvents (((evidenceHome cards archive shards).store env).dir cardId)).filter
        (isLinkOf key)).map evidenceOf ++
        (bindings ["link", "verdict"] ((evidenceHome cards archive shards).overlay env) cardId key).map
          CardEvent.evidence)).map Prod.snd := by
    rw [fold_link hfold, List.filter_append, List.map_append]
    rw [← map_legacyEvents cards archive ((evidenceHome cards archive shards).overlay env)]
    rfl
  -- The joined reader shows what the patch holds.
  have hjoined : t.link key =
      patchLink ((evidenceHome cards archive shards).overlay env) cardId key := by
    have hannotations := annotations_readJoinedTruth hjoin
    obtain ⟨authoritative, hannotations⟩ := hannotations
    rw [JoinedCardTruth.link, hannotations]
    have hvalue : ∀ e ∈ (evidenceHome cards archive shards).overlay env, e.action = "link" →
        e.linkValue ≠ none := by
      intro e he hact
      rw [overlay_evidenceHome] at he
      exact linkValue_of_accepted he hact
    have hcurrent := @get?_currentLinks_dump env cardId key _ hvalue
    rw [← hcurrent]
    rw [← find?_joinAnnotations authoritative]
    rw [Option.map_map]
    rfl
  rw [hjoined, evidenceLink_eq, hstore, patchLink_eq, overlay_evidenceHome]
  unfold NotOvertaken LevelAlike
  constructor
  · rintro ⟨h1, -, h3⟩
    exact ⟨h1, h3⟩
  · rintro ⟨h1, h3⟩
    exact ⟨h1, rfl, h3⟩

/-! ### A link and a verdict -/

/-- A machine that writes to the store. -/
def evidenceEnv : Env :=
  { hostname := "h", writeEnabled := true, lineHash := fun _ => "", repr := fun _ => "" }

/-- The card `c1`. -/
def evidenceCards : Assoc String CardDir :=
  [("c1", {
      core := .present { id := "c1", title := "t", createdAt := "" }
      logs := []
      nodup := List.nodup_nil })]

/-- An outcome of `c1`. -/
def outcomeEvent (action key : String) : CardEvent :=
  { cardId := "c1"
    action := action
    writer := "w"
    ts := "1"
    linkKey := some key
    linkValue := some "PASS" }

/-- A shard with a link of `c1`. -/
def linkShard : Assoc String (List (AcceptedEvent evidenceEnv)) :=
  [("h.jsonl", [⟨outcomeEvent "link" "gate", by decide⟩])]

/-- A shard with a verdict on `c1`. -/
def verdictShard : Assoc String (List (AcceptedEvent evidenceEnv)) :=
  [("h.jsonl", [⟨outcomeEvent "verdict" "verdict", by decide⟩])]

/-- The four readers agree on a link that only the overlay has. -/
theorem readers_agree_link : ∃ (c : Card) (t : JoinedCardTruth), ∀ key,
    let home := evidenceHome evidenceCards [] linkShard
    c.link key = patchLink (home.overlay evidenceEnv) "c1" key ∧
      patchLink (home.overlay evidenceEnv) "c1" key = t.link key ∧
      t.link key =
        evidenceLink (loadEvidence (shardEvents linkShard)) "c1" key := by
  have hfold : ((evidenceHome evidenceCards [] linkShard).store
      evidenceEnv).fold evidenceEnv "c1" = .ok (some _) := rfl
  have hjoin : readJoinedTruth evidenceEnv
      (evidenceHome evidenceCards [] linkShard) "c1" = .ok _ := rfl
  refine ⟨_, _, (readers_agree_iff evidenceCards [] linkShard "c1" hfold
    hjoin).mpr fun key => ?_⟩
  by_cases hk : key = "gate"
  · subst hk
    exact ⟨rfl, rfl⟩
  · -- no event binds another key
    have hnone : ∀ actions, bindings actions
        ((evidenceHome evidenceCards [] linkShard).overlay evidenceEnv) "c1" key = [] := by
      intro actions
      rw [overlay_evidenceHome]
      refine List.filter_eq_nil_iff.mpr fun e he => ?_
      have hevent : e = outcomeEvent "link" "gate" := List.mem_singleton.mp he
      rw [hevent, Bool.and_eq_true]
      exact fun hand => hk (Option.some.inj (of_decide_eq_true hand.2)).symm
    unfold NotOvertaken LevelAlike
    rw [hnone, hnone]
    exact ⟨rfl, rfl⟩

/-- The store reads a verdict that none of the other readers sees. -/
theorem verdict_read_by_one : ¬ ∀ (env : Env) (cards : Assoc String CardDir)
    (archive : List ArchiveEntry) (shards : Assoc String (List (AcceptedEvent env))) (cardId : String)
    (c : Card) (t : JoinedCardTruth),
    ((evidenceHome cards archive shards).store env).fold env cardId = .ok (some c) →
    readJoinedTruth env (evidenceHome cards archive shards) cardId = .ok t →
    ∀ key,
      c.link key = patchLink ((evidenceHome cards archive shards).overlay env) cardId key ∧
      patchLink ((evidenceHome cards archive shards).overlay env) cardId key = t.link key ∧
      t.link key = evidenceLink (loadEvidence (shardEvents shards)) cardId key := by
  intro hagree
  have hfold : ((evidenceHome evidenceCards [] verdictShard).store
      evidenceEnv).fold evidenceEnv "c1" = .ok (some _) := rfl
  have hjoin : readJoinedTruth evidenceEnv
      (evidenceHome evidenceCards [] verdictShard) "c1" = .ok _ := rfl
  have hkey := (hagree evidenceEnv evidenceCards []
    verdictShard "c1" _ _ hfold hjoin "verdict").1
  have hpatch : patchLink ((evidenceHome evidenceCards [] verdictShard).overlay evidenceEnv) "c1"
      "verdict" = none := rfl
  have hread : some (Json.str "PASS") = none := hkey.trans hpatch
  cases hread

end SkCoord
