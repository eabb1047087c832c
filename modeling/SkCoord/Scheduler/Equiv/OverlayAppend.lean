import SkCoord.CardStore.Equiv.Dated
import SkCoord.Scheduler.Annotation
import SkCoord.Scheduler.Equiv.Marks

/-!
# The overlay append of an annotation

The second append of a call puts its annotation into the fold once more, at the place that its time
gives it.  `Store.fold_inserted` says that a fold with one more legacy event on the marks of a card
still returns, and `fold_appendShard` that it still reflects the annotation.
-/

namespace SkCoord

open Python

variable {env : AnnotationEnv} {cardId : String} {d d' : SharedHome} {c : AnnotationCall}

/-! ### The second append -/

/-- One more event of the overlay. -/
theorem overlay_appendShard {e : CardEvent} (he : (e.validate env.env true).isOk = true) :
    InsertedAt e (d.overlay env) ((d.appendShard env e).overlay env) := by
  have hline : admitted env.env (some e) = some e := by
    unfold admitted
    rw [Option.filter_some, if_pos he]
  refine insertedAt_readByName (c := fun name => endsWith name ".jsonl") hline d.nodup ?_
  unfold endsWith CardEventLog.shardName
  rw [List.isSuffixOf_iff_suffix, String.toList_append]
  exact List.suffix_append _ _

/-- The event that the store makes of an annotation of the overlay. -/
def mutationEvent (e : CardEvent) (action : LegacyAction) : Event :=
  LegacyMutation.toEvent
    { action, ts := .str e.ts, writer := .str e.writer, seq := e.seq, origin := "legacy-overlay"
      payload := e.payload }

theorem legacyEvents_appendShard {e : CardEvent} {action : LegacyAction}
    (he : (e.validate env.env true).isOk = true) (hid : e.cardId = cardId)
    (hact : overlayToStoreAction e.action = some action) :
    InsertedAt (mutationEvent e action) ((d.store env).legacyEvents cardId)
      (((d.appendShard env e).store env).legacyEvents cardId) := by
  have hmutation : ((overlayMutation e).map fun m => (e.cardId, m)) =
      some (cardId, { action, ts := .str e.ts, writer := .str e.writer, seq := e.seq
                      origin := "legacy-overlay", payload := e.payload }) := by
    unfold overlayMutation
    rw [hact, hid]
    rfl
  unfold SharedHome.store Home.store
  rw [legacyEvents_loaded, legacyEvents_loaded]
  unfold Assoc.valuesOf legacyMutations
  have hloaded := ((overlay_appendShard (d := d) he).filterMap
    (f := fun e => (overlayMutation e).map fun m => (e.cardId, m)) hmutation).append_left
    ((d.home.archive.filter fun x => x.id ≠ "").map fun x => (x.id, archiveMutation x))
  have habout := hloaded.filter (f := fun p => p.1 = cardId) (decide_eq_true rfl)
  exact (habout.map Prod.snd).map LegacyMutation.toEvent

/-- The archive index dates its entries about a card in texts. -/
def ArchiveDated (d : SharedHome) (cardId : String) : Prop :=
  ∀ x ∈ d.home.archive, x.id = cardId → (∃ ts, x.archivedAt = .str ts) ∧
    ∃ writer, x.archivedBy.orElse (.str "archive") = .str writer

theorem stamped_mutationEvent (e : CardEvent) (action : LegacyAction) :
    Store.Stamped (mutationEvent e action) e.ts :=
  ⟨rfl, ⟨e.writer, rfl⟩, ⟨e.seq, rfl⟩⟩

theorem legacyEvents_stamped (env : AnnotationEnv) (h : ArchiveDated d cardId) :
    ∀ e ∈ (d.store env).legacyEvents cardId, ∃ ts, Store.Stamped e ts := by
  intro e he
  unfold SharedHome.store Home.store at he
  rw [legacyEvents_loaded] at he
  obtain ⟨m, hm, rfl⟩ := List.mem_map.mp he
  obtain ⟨⟨k, m'⟩, habout, rfl⟩ := List.mem_map.mp hm
  obtain ⟨hmem, hk⟩ := List.mem_filter.mp habout
  have hk : k = cardId := of_decide_eq_true hk
  subst hk
  rcases List.mem_append.mp hmem with hp | hp
  · obtain ⟨x, hx, heq⟩ := List.mem_map.mp hp
    obtain ⟨hid, rfl⟩ := Prod.mk.inj heq
    obtain ⟨⟨ts, hts⟩, ⟨writer, hwriter⟩⟩ := h x (List.mem_filter.mp hx).1 hid
    refine ⟨ts, ⟨?_, ⟨writer, ?_⟩, ⟨0, rfl⟩⟩⟩
    · show some x.archivedAt = _
      rw [hts]
    · show some (x.archivedBy.orElse (.str "archive")) = _
      rw [hwriter]
  · obtain ⟨x, -, heq⟩ := List.mem_filterMap.mp hp
    obtain ⟨m, hm, heq⟩ := Option.map_eq_some_iff.mp heq
    obtain ⟨action, -, rfl⟩ := Option.map_eq_some_iff.mp hm
    obtain ⟨-, rfl⟩ := Prod.mk.inj heq
    exact ⟨x.ts, stamped_mutationEvent x action⟩

namespace Store

variable {st st' : Store} {x : Event}

/-- **One more legacy event** comes in at one place of the merged stream. -/
theorem mergedEvents_inserted {env : Env} (hdir : st'.dir cardId = st.dir cardId)
    (hins : InsertedAt x (st.legacyEvents cardId) (st'.legacyEvents cardId))
    (hlogs : ∀ e ∈ logEvents (st.dir cardId), ∃ ts, Stamped e ts)
    (hlegacy : ∀ e ∈ st'.legacyEvents cardId, ∃ ts, Stamped e ts) {events : List Event}
    (h : st.mergedEvents env cardId = .ok events) :
    ∃ events', st'.mergedEvents env cardId = .ok events' ∧ InsertedAt x events events' := by
  unfold mergedEvents at h ⊢
  obtain ⟨evs, hevs, h⟩ := bind_eq_ok.mp h
  have hevs' : st'.readEvents env cardId = .ok evs := by
    rw [← hevs]
    unfold readEvents
    rw [hdir]
  have hsorted : evs.Pairwise fun a b => Store.eventKey a ≤ Store.eventKey b := by
    rw [readEvents_eq hevs]
    exact List.pairwise_insertionSort _ _
  have hmerged : events = (evs ++ st.legacyEvents cardId).insertionSort fun a b =>
      Store.eventKey a ≤ Store.eventKey b := by
    split at h
    · rename_i hempty
      rw [List.isEmpty_iff.mp hempty, List.append_nil, hsorted.insertionSort_eq]
      exact (pure_eq_ok.mp h).symm
    · exact sortByKey_eq_ok h
  have hstamped : ∀ e ∈ evs ++ st'.legacyEvents cardId, ∃ ts, Stamped e ts := by
    intro e he
    rcases List.mem_append.mp he with he | he
    · exact hlogs e ((mem_readEvents_iff hevs).mp he)
    · exact hlegacy e he
  have hne : (st'.legacyEvents cardId).isEmpty = false := by
    obtain ⟨p, q, -, h2⟩ := hins
    rw [h2]
    cases p <;> rfl
  refine ⟨(evs ++ st'.legacyEvents cardId).insertionSort fun a b =>
    Store.eventKey a ≤ Store.eventKey b, bind_eq_ok.mpr ⟨evs, hevs', ?_⟩, ?_⟩
  · rw [hne, if_neg Bool.false_ne_true]
    exact sortByKey_eq_ok_iff.mpr ⟨pairwise_comparable hstamped, rfl⟩
  · obtain ⟨p, q, h1, h2⟩ := hins.append_left evs
    rw [hmerged, h1, h2]
    exact insertionSort_insert _ x q p

/-- **A fold with one more legacy event** on the marks of the card returns, with the marks that the
event makes. -/
theorem fold_inserted {env : Env} (hx : FoldState.OnMarks cardId x) (hcards : st'.cards = st.cards)
    (hins : InsertedAt x (st.legacyEvents cardId) (st'.legacyEvents cardId))
    (hlogs : ∀ e ∈ logEvents (st.dir cardId), ∃ ts, Stamped e ts)
    (hlegacy : ∀ e ∈ st'.legacyEvents cardId, ∃ ts, Stamped e ts) {card : Card}
    (h : st.fold env cardId = .ok (some card)) :
    ∃ card' p q m, st'.fold env cardId = .ok (some card') ∧
      card.marks = (p ++ q).foldl Marks.next m ∧
      card'.marks = (p ++ x :: q).foldl Marks.next m := by
  have hdir : st'.dir cardId = st.dir cardId := by
    unfold dir
    rw [hcards]
  obtain ⟨core, events, s, hcore, hevents, hs, rfl⟩ := fold_eq_some.mp h
  obtain ⟨events', hevents', p, q, rfl, rfl⟩ :=
    mergedEvents_inserted hdir hins hlogs hlegacy hevents
  obtain ⟨s₀, h0, hs⟩ := bind_eq_ok.mp hs
  obtain ⟨u, hs'⟩ := FoldState.foldEvents_insert hx hs
  have hcore' : st'.loadCore cardId = .ok (some core) := by
    rw [← hcore]
    unfold loadCore
    rw [hdir]
  exact ⟨_, p, q, s₀.card.marks,
    fold_eq_some.mpr ⟨core, _, _, hcore', hevents', bind_eq_ok.mpr ⟨s₀, h0, hs'⟩, rfl⟩,
    FoldState.marks_foldEvents hs, rfl⟩

end Store

/-! ### What a call asks for -/

/-- The arguments that pass the checks. -/
inductive AnnotationCall.IsValid (c : AnnotationCall) : Prop
  | addLabel (tag : String) (action : c.action = "add_label") (label : c.label = .str tag)
  | removeLabel (tag : String) (action : c.action = "remove_label") (label : c.label = .str tag)
  | link (key value : String) (action : c.action = "link") (linkKey : c.linkKey = .str key)
    (linkValue : c.linkValue = .str value)

/-- What the checks of the arguments let through. -/
theorem isValid_of_validate (h : c.validate = .ok ()) :
    c.IsValid ∧ (c.transitionId = .null ∨ ∃ t, c.transitionId = .str t ∧ t ≠ "") := by
  unfold AnnotationCall.validate at h
  dsimp only at h
  split at h
  · cases h
  rename_i hact
  split at h
  · cases h
  rename_i hpayload
  split at h
  · cases h
  rename_i htransition
  rw [not_not] at hact
  have htexts : ∀ p ∈ c.payload, ∃ text, p.2 = .str text := by
    intro p hp
    have htext : p.2.isNonEmptyStr = true := by
      simpa using List.any_eq_false.mp (Bool.eq_false_of_not_eq_true hpayload) p hp
    obtain ⟨text, htext, -⟩ := (Json.isNonEmptyStr_iff _).mp htext
    exact ⟨text, htext⟩
  refine ⟨?_, ?_⟩
  · simp only [List.mem_cons, List.not_mem_nil, or_false] at hact
    unfold AnnotationCall.payload at htexts
    rcases hact with hact | hact | hact
    · rw [hact, if_pos (by decide)] at htexts
      obtain ⟨tag, htag⟩ := htexts _ List.mem_cons_self
      exact .addLabel tag hact htag
    · rw [hact, if_pos (by decide)] at htexts
      obtain ⟨tag, htag⟩ := htexts _ List.mem_cons_self
      exact .removeLabel tag hact htag
    · rw [hact, if_neg (by decide)] at htexts
      obtain ⟨key, hkey⟩ := htexts _ List.mem_cons_self
      obtain ⟨value, hvalue⟩ := htexts _ (List.mem_cons_of_mem _ List.mem_cons_self)
      exact .link key value hact hkey hvalue
  · by_cases hnone : c.transitionId.isNone = true
    · exact .inl ((Json.isNone_iff _).mp hnone)
    · rw [Bool.eq_false_of_not_eq_true hnone] at htransition
      exact .inr ((Json.isNonEmptyStr_iff _).mp (by simpa using htransition))

theorem matchesFields_iff {event : Dict} {action : String} {payload : Dict} :
    matchesFields event action payload = true ↔
      event.get "action" = .str action ∧ ∀ p ∈ payload, (event.get p.1).pyEq p.2 = true := by
  unfold matchesFields
  rw [Bool.and_eq_true, Json.pyEq_str_right_iff, List.all_eq_true]

namespace AnnotationCall.IsValid

/-- The payload of a valid call, as the overlay keeps it. -/
theorem payload_overlayEvent (hc : c.IsValid) (env : AnnotationEnv) (cardId eventId ts : String) :
    (c.overlayEvent env cardId eventId ts).payload = c.payload := by
  cases hc with
  | addLabel tag hact hlabel | removeLabel tag hact hlabel =>
    have hpayload : c.payload = [("label", .str tag)] := by
      unfold AnnotationCall.payload
      rw [hact, hlabel, if_pos (by decide)]
    unfold overlayEvent
    rw [hpayload]
    rfl
  | link key value hact hkey hvalue =>
    have hpayload : c.payload = [("link_key", .str key), ("link_value", .str value)] := by
      unfold AnnotationCall.payload
      rw [hact, hkey, hvalue, if_neg (by decide)]
    unfold overlayEvent
    rw [hpayload]
    rfl

/-- The store folds the annotation of the overlay as the one of the log. -/
theorem mutationEvent_matches (hc : c.IsValid) (env : AnnotationEnv) (cardId eventId ts : String) :
    ∃ action,
    overlayToStoreAction c.action = some action ∧
      matchesFields (mutationEvent (c.overlayEvent env cardId eventId ts) action) c.action
        c.payload = true := by
  have hpayload := hc.payload_overlayEvent env cardId eventId ts
  unfold mutationEvent LegacyMutation.toEvent
  dsimp only
  rw [hpayload]
  cases hc with
  | addLabel tag hact hlabel =>
    refine ⟨.addLabel, by rw [hact]; rfl, ?_⟩
    unfold AnnotationCall.payload
    rw [hact, hlabel, if_pos (by decide)]
    simp [matchesFields, Dict.get, Assoc.get?, LegacyAction.value]
  | removeLabel tag hact hlabel =>
    refine ⟨.removeLabel, by rw [hact]; rfl, ?_⟩
    unfold AnnotationCall.payload
    rw [hact, hlabel, if_pos (by decide)]
    simp [matchesFields, Dict.get, Assoc.get?, LegacyAction.value]
  | link key value hact hkey hvalue =>
    refine ⟨.link, by rw [hact]; rfl, ?_⟩
    unfold AnnotationCall.payload
    rw [hact, hkey, hvalue, if_neg (by decide)]
    simp [matchesFields, Dict.get, Assoc.get?, LegacyAction.value]

/-- An event that matches the annotation of a valid call. -/
theorem of_matches (hc : c.IsValid) {x : Event}
    (hx : matchesFields x c.action c.payload = true) :
    (∃ tag, c.action = "add_label" ∧ c.payload = [("label", .str tag)] ∧ x.action = .addLabel ∧
        x.get "label" = .str tag) ∨
      (∃ tag, c.action = "remove_label" ∧ c.payload = [("label", .str tag)] ∧
        x.action = .removeLabel ∧ x.get "label" = .str tag) ∨
      ∃ key value, c.action = "link" ∧
        c.payload = [("link_key", .str key), ("link_value", .str value)] ∧ x.action = .link ∧
        x.get "link_key" = .str key ∧ x.get "link_value" = .str value := by
  obtain ⟨haction, hfields⟩ := matchesFields_iff.mp hx
  have htext : ∀ text, c.action = text → x.action = Action.ofString text := by
    rintro text rfl
    unfold Event.action
    rw [show Dict.get x "action" = _ from haction]
  cases hc with
  | addLabel tag hact hlabel =>
    have hpayload : c.payload = [("label", .str tag)] := by
      unfold AnnotationCall.payload
      rw [hact, hlabel, if_pos (by decide)]
    rw [hpayload] at hfields
    exact .inl ⟨tag, hact, hpayload, htext _ hact,
      (Json.pyEq_str_right_iff _ _).mp (hfields _ List.mem_cons_self)⟩
  | removeLabel tag hact hlabel =>
    have hpayload : c.payload = [("label", .str tag)] := by
      unfold AnnotationCall.payload
      rw [hact, hlabel, if_pos (by decide)]
    rw [hpayload] at hfields
    exact .inr (.inl ⟨tag, hact, hpayload, htext _ hact,
      (Json.pyEq_str_right_iff _ _).mp (hfields _ List.mem_cons_self)⟩)
  | link key value hact hkey hvalue =>
    have hpayload : c.payload = [("link_key", .str key), ("link_value", .str value)] := by
      unfold AnnotationCall.payload
      rw [hact, hkey, hvalue, if_neg (by decide)]
    rw [hpayload] at hfields
    exact .inr (.inr ⟨key, value, hact, hpayload, htext _ hact,
      (Json.pyEq_str_right_iff _ _).mp (hfields _ List.mem_cons_self),
      (Json.pyEq_str_right_iff _ _).mp
        (hfields _ (List.mem_cons_of_mem _ List.mem_cons_self))⟩)

theorem onMarks (hc : c.IsValid) {x : Event}
    (hx : matchesFields x c.action c.payload = true) : FoldState.OnMarks cardId x := by
  rcases hc.of_matches hx with ⟨tag, -, -, hact, -⟩ | ⟨tag, -, -, hact, -⟩ |
    ⟨key, value, -, -, hact, hkey, -⟩
  · refine FoldState.onMarks_of_action (.inl hact) fun h => ?_
    rw [hact] at h
    cases h
  · refine FoldState.onMarks_of_action (.inr (.inl hact)) fun h => ?_
    rw [hact] at h
    cases h
  · refine FoldState.onMarks_of_action (.inr (.inr hact)) fun _ => ?_
    rw [hkey]
    rfl

/-- **The same annotation once more**, wherever it comes in, is still reflected. -/
theorem reflects_inserted (hc : c.IsValid) {x : Event}
    (hx : matchesFields x c.action c.payload = true) {card card' : Card} {p q : List Event}
    {m : Marks} (hcard : card.marks = (p ++ q).foldl Marks.next m)
    (hcard' : card'.marks = (p ++ x :: q).foldl Marks.next m)
    (h : foldReflects card c.action c.payload = true) :
    foldReflects card' c.action c.payload = true := by
  have hlabels : card.labels = _ := congrArg Marks.labels hcard
  have hlabels' : card'.labels = _ := congrArg Marks.labels hcard'
  have hlinks : card.links = _ := congrArg Marks.links hcard
  have hlinks' : card'.links = _ := congrArg Marks.links hcard'
  rcases hc.of_matches hx with ⟨tag, hact, hpayload, hxact, hlabel⟩ |
    ⟨tag, hact, hpayload, hxact, hlabel⟩ | ⟨key, value, hact, hpayload, hxact, hkey, hvalue⟩
  · rw [hact, hpayload] at h ⊢
    have hon : (Json.str tag).mem card.labels = true := h
    show (Json.str tag).mem card'.labels = true
    rw [Json.mem_str_iff] at hon ⊢
    rw [hlabels] at hon
    rw [hlabels']
    exact mem_labels_inserted hxact hlabel hon
  · rw [hact, hpayload] at h ⊢
    have hoff : (!(Json.str tag).mem card.labels) = true := h
    show (!(Json.str tag).mem card'.labels) = true
    rw [Bool.not_eq_true', Bool.eq_false_iff, ne_eq, Json.mem_str_iff] at hoff ⊢
    rw [hlabels] at hoff
    rw [hlabels']
    exact not_mem_labels_inserted hxact hlabel hoff
  · rw [hact, hpayload] at h ⊢
    have hlink : ((linkOf key card.links).getD .null).pyEq (.str value) = true := h
    show ((linkOf key card'.links).getD .null).pyEq (.str value) = true
    have hbound : ∀ o : Option Json, (o.getD .null).pyEq (.str value) = true ↔
        o = some (.str value) := by
      intro o
      rw [Json.pyEq_str_right_iff]
      cases o <;> simp
    rw [hbound] at hlink ⊢
    rw [hlinks] at hlink
    rw [hlinks']
    refine linkOf_inserted ?_ hvalue hlink
    simp [isLinkOf, hxact, hkey]

end AnnotationCall.IsValid

/-- **Behind the second append** the fold returns and still reflects the annotation. -/
theorem fold_appendShard (hc : c.IsValid) {eventId ts : String} {card : Card}
    (hlogs : ∀ e ∈ Store.logEvents ((d.store env).dir cardId), ∃ ts, Store.Stamped e ts)
    (harchive : ArchiveDated d cardId)
    (he : ((c.overlayEvent env cardId eventId ts).validate env.env true).isOk = true)
    (h : (d.store env).fold env.env cardId = .ok (some card))
    (hreflects : foldReflects card c.action c.payload = true) :
    ∃ card', ((d.appendShard env (c.overlayEvent env cardId eventId ts)).store env).fold env.env
        cardId = .ok (some card') ∧ foldReflects card' c.action c.payload = true := by
  obtain ⟨action, haction, hmatches⟩ :=
    hc.mutationEvent_matches env cardId eventId ts
  have hid : (c.overlayEvent env cardId eventId ts).cardId = cardId := rfl
  have hact : overlayToStoreAction (c.overlayEvent env cardId eventId ts).action = some action :=
    haction
  generalize c.overlayEvent env cardId eventId ts = e at *
  have hcards : ((d.appendShard env e).store env).cards = (d.store env).cards := rfl
  have harchive' : ArchiveDated (d.appendShard env e) cardId := harchive
  have hins := legacyEvents_appendShard (d := d) he hid hact
  have hlegacy := legacyEvents_stamped env harchive'
  obtain ⟨card', p, q, m, hfold, hmarks, hmarks'⟩ :=
    Store.fold_inserted (hc.onMarks hmatches) hcards hins hlogs hlegacy h
  exact ⟨card', hfold, hc.reflects_inserted hmatches hmarks hmarks' hreflects⟩

end SkCoord
