import SkCoord.Coordination.Page
import SkCoord.CardStore.Equiv.Interleaving
import SkCoord.Coordination.Equiv.Views

/-!
# Every page is read once

`taskViewCursorPosition_issued`: a cursor that was handed out is read back as the position it was
made for, and refused for any other read.  `page_at` is what one page of a fixed population holds,
and `task_view_pages_complete` puts the pages together.
-/

namespace SkCoord

open Python

/-! ### The size of a cursor -/

theorem length_escapeChar_le (c : Char) : (escapeChar c).length ≤ 12 := by
  have hunit : ∀ u, (unicodeEscape u).length = 6 := fun _ => rfl
  rw [escapeChar]
  split
  · exact (by decide : 2 ≤ 12)
  · split
    · exact (by decide : 1 ≤ 12)
    · rw [units]
      -- one escape, or the two of a pair
      split <;> simp [hunit]

theorem length_quote_le (s : String) : (quote s).length ≤ 2 + 12 * s.toList.length := by
  have hbody : (s.toList.flatMap escapeChar).length ≤ 12 * s.toList.length := by
    induction s.toList with
    | nil => exact le_rfl
    | cons c l ih =>
      have hc := length_escapeChar_le c
      rw [List.flatMap_cons, List.length_append, List.length_cons]
      omega
  rw [quote, List.length_append, List.length_cons, List.length_singleton]
  omega

theorem length_intText_le {n : ℕ} (hn : n < 1000) : (intText n).text.length ≤ 3 := by
  have hdigits : (Nat.digits 10 n).length ≤ 3 := (Nat.digits_length_le_iff (by decide) n).mpr hn
  have hdecimal : (decimal n).length ≤ 3 := by
    rw [decimal]
    split
    · decide
    · simpa using hdigits
  have htext : (intText n).text = decimal n := by
    have hneg : ¬ (n : ℤ) < 0 := by omega
    simp [NumText.text, intText, NumText.fracText, NumText.exponentText, hneg]
  rw [htext]
  exact hdecimal

/-- The bounds on the fields of a payload. -/
structure PayloadBounds (after : String) (limit : ℕ) (population scope : String) : Prop where
  after : after.toList.length ≤ 128
  limit : limit ≤ taskViewPageLimit
  population : population.toList.length ≤ 256
  scope : scope.toList.length ≤ taskViewScopeMaxCharacters

/-- The length of a payload is that of its three texts and its limit, and at most 65 more. -/
theorem length_dumps_payload (F : FloatText) (after : String) (archived : Bool) (limit : ℕ)
    (population scope : String) :
    ((Json.obj (cursorPayload after archived limit population scope)).dumps F .compact).length ≤
      (quote after).length + (quote population).length + (quote scope).length +
        (intText limit).text.length + 65 := by
  have hkeys : (quote "after").length = 7 ∧ (quote "archived").length = 10 ∧
      (quote "limit").length = 7 ∧ (quote "population").length = 12 ∧
      (quote "scope").length = 7 ∧ (quote "v").length = 3 := by decide
  obtain ⟨h1, h2, h3, h4, h5, h6⟩ := hkeys
  have htwo : (intText 2).text.length = 1 := by decide
  have hbool : ((Json.bool archived).dumps F .compact).length ≤ 5 := by
    cases archived
    · exact (by decide : 5 ≤ 5)
    · exact (by decide : 4 ≤ 5)
  rw [cursorPayload]
  simp only [Json.dumps, Json.dumpsFields, JsonLayout.item, JsonLayout.key, List.length_append,
    List.length_cons, List.length_nil, h1, h2, h3, h4, h5, h6, htwo] at hbool ⊢
  omega

/-- A cursor within the bounds is handed out: the contract on its size is exact. -/
theorem taskViewCursor_ok (E : CursorEnv) {after : String} (archived : Bool) {limit : ℕ}
    {population scope : String} (h : PayloadBounds after limit population scope) :
    ∃ cursor, taskViewCursor E (cursorPayload after archived limit population scope) = .ok cursor := by
  have hsize : (stripPadding (urlsafeB64encode (encodeUtf8
      ((Json.obj (cursorPayload after archived limit population scope)).dumps E.floats .compact) ++
        E.digest (encodeUtf8 ((Json.obj (cursorPayload after archived limit population scope)).dumps
          E.floats .compact))))).length ≤ taskViewCursorMaxEncodedBytes := by
    have hafter := length_quote_le after
    have hpopulation := length_quote_le population
    have hscope := length_quote_le scope
    have hlimit : (intText limit).text.length ≤ 3 :=
      length_intText_le (lt_of_le_of_lt h.limit (by decide))
    have hbody := length_dumps_payload E.floats after archived limit population scope
    have h1 := h.after
    have h2 := h.population
    have h3 : scope.toList.length ≤ 256 := h.scope
    rw [length_stripPadding, List.length_append, E.length_digest,
      length_encodeUtf8 (Json.printable_dumps _ _ _)]
    show _ ≤ 10382
    omega
  unfold taskViewCursor
  dsimp only
  rw [if_neg (Nat.not_lt.mpr hsize)]
  exact ⟨_, rfl⟩

/-! ### A cursor is read back -/

theorem cursorPayload_wellFormed (F : FloatText) (after : String) (archived : Bool) (limit : ℕ)
    (population scope : String) :
    (Json.obj (cursorPayload after archived limit population scope)).WellFormed F := by
  have hkeys : (Assoc.keys (cursorPayload after archived limit population scope)).Nodup := by
    show ["after", "archived", "limit", "population", "scope", "v"].Nodup
    decide
  exact ⟨hkeys, trivial, trivial, trivial, trivial, trivial, trivial, trivial⟩

/-- The bytes of a cursor: the payload and its digest. -/
theorem cursorPosition_signed (E : CursorEnv) {payload : Dict}
    (hp : (Json.obj payload).WellFormed E.floats) (scope : String) (limit : ℕ)
    (includeArchived : Bool) :
    cursorPosition E (stripPadding (urlsafeB64encode
      (encodeUtf8 ((Json.obj payload).dumps E.floats .compact) ++
        E.digest (encodeUtf8 ((Json.obj payload).dumps E.floats .compact))))) scope limit
      includeArchived = boundPosition (.obj payload) scope limit includeArchived := by
  set body := encodeUtf8 ((Json.obj payload).dumps E.floats .compact) with hbody
  have hlength : (E.digest body).length = 32 := E.length_digest body
  have hat : (body ++ E.digest body).length - 32 = body.length := by
    rw [List.length_append, hlength]
    omega
  have hdecode : decodeUtf8 body = some ((Json.obj payload).dumps E.floats .compact) := by
    rw [hbody, decodeUtf8_encodeUtf8]
  rw [cursorPosition, restorePadding_stripPadding, b64decode_urlsafeB64encode]
  simp only [Option.bind_eq_bind, Option.bind_some, hat, List.take_left, List.drop_left]
  rw [if_neg (by simp [hlength]), hdecode, Option.bind_some, Json.loads_dumps E.floats .compact hp,
    Option.bind_some]

/-- **A cursor that was handed out** is read back as its payload. -/
theorem taskViewCursorPosition_issued (E : CursorEnv) {payload : Dict} {cursor : String}
    (hp : (Json.obj payload).WellFormed E.floats) (h : taskViewCursor E payload = .ok cursor)
    (scope : String) (limit : ℕ) (includeArchived : Bool) :
    taskViewCursorPosition E (some cursor) scope limit includeArchived =
      match boundPosition (.obj payload) scope limit includeArchived with
      | some position => .ok (some position)
      | none => .error (.value "task-view cursor is malformed, stale, or out of scope") := by
  have hread := cursorPosition_signed E hp scope limit includeArchived
  rw [taskViewCursor] at h
  set raw := encodeUtf8 ((Json.obj payload).dumps E.floats .compact) ++
    E.digest (encodeUtf8 ((Json.obj payload).dumps E.floats .compact)) with hraw
  have h32 : 32 ≤ raw.length := by
    rw [hraw, List.length_append, E.length_digest]
    omega
  split at h
  · cases h
  · rename_i hsize
    cases h
    have hne : stripPadding (urlsafeB64encode raw) ≠ [] := by
      intro hnil
      have hlength := length_stripPadding raw
      rw [hnil, List.length_nil] at hlength
      omega
    have hascii : ¬ (stripPadding (urlsafeB64encode raw)).any (fun c => 128 ≤ c.toNat) := by
      intro hany
      obtain ⟨c, hc, hge⟩ := List.any_eq_true.mp hany
      have hlt := urlsafeB64encode_ascii raw c (mem_of_mem_stripPadding hc)
      rw [decide_eq_true_eq] at hge
      omega
    unfold taskViewCursorPosition
    simp only [String.toList_ofList]
    rw [if_neg (not_or.mpr ⟨hne, not_or.mpr ⟨hsize, hascii⟩⟩), hread]
    cases boundPosition (.obj payload) scope limit includeArchived <;> rfl

/-- The checks that bind a payload to a read. -/
theorem boundPosition_payload (after : String) (archived : Bool) (limit : ℕ)
    (population scope scope' : String) (limit' : ℕ) (archived' : Bool) :
    boundPosition (.obj (cursorPayload after archived limit population scope)) scope' limit'
        archived' =
      if scope = scope' ∧ limit = limit' ∧ archived = archived' ∧ after ≠ "" ∧
          after.toList.length ≤ 128 ∧ population ≠ "" ∧ population.toList.length ≤ 256 then
        (validateCardLockIdentifier after).toOption.map fun after => (after, population)
      else none := by
  have hkeys : (Assoc.keys (cursorPayload after archived limit population scope)).all
      (· ∈ cursorFields) = true ∧
      cursorFields.all (· ∈ Assoc.keys (cursorPayload after archived limit population scope)) =
        true := by
    show ["after", "archived", "limit", "population", "scope", "v"].all (· ∈ cursorFields) = true ∧
      cursorFields.all (· ∈ ["after", "archived", "limit", "population", "scope", "v"]) = true
    decide
  have hlimit : (Json.int limit).pyEq (.int limit') = true ↔ limit = limit' := by
    exact beq_iff_eq.trans (Int.cast_inj.trans Nat.cast_inj)
  have hscope : (Json.str scope).pyEq (.str scope') = true ↔ scope = scope' :=
    (Json.pyEq_str_iff _ _).trans ⟨fun h => (Json.str.inj h).symm, fun h => h ▸ rfl⟩
  have hv : (Json.int 2).pyEq (.int 2) = true := by decide
  show (if ((_ && _ && (Json.int 2).pyEq (.int 2) && (Json.str scope).pyEq (.str scope') &&
    (Json.int limit).pyEq (.int limit') && (archived == archived')) && _ && _ && _ && _) = true
      then _ else _) = _
  refine if_congr ?_ rfl rfl
  simp only [Bool.and_eq_true, hkeys.1, hkeys.2, hv, hscope, hlimit, beq_iff_eq, decide_eq_true_eq,
    true_and, and_assoc]

/-! ### One page -/

/-- What is behind an element of an ordered list is what is greater. -/
theorem filter_lt_getElem? {α : Type*} [LinearOrder α] : ∀ {l : List α}, l.Pairwise (· < ·) →
    ∀ {k : ℕ} {a : α}, l[k]? = some a → l.filter (a < ·) = l.drop (k + 1)
  | [], _, _, _, h => nomatch h
  | x :: l, hl, 0, a, h => by
    have hx : x = a := Option.some.inj h
    obtain ⟨hlt, -⟩ := List.pairwise_cons.mp hl
    rw [List.filter_cons_of_neg (by simp [hx]), List.drop_succ_cons, List.drop_zero]
    exact List.filter_eq_self.mpr fun y hy => decide_eq_true (hx ▸ hlt y hy)
  | x :: l, hl, k + 1, a, h => by
    obtain ⟨hlt, hl⟩ := List.pairwise_cons.mp hl
    have hmem : a ∈ l := List.mem_of_getElem? h
    have hxa : ¬ a < x := not_lt.mpr (le_of_lt (hlt a hmem))
    rw [List.filter_cons_of_neg (by simpa using le_of_lt (hlt a hmem)), List.drop_succ_cons]
    exact filter_lt_getElem? hl h

variable {env : Env} {E : CursorEnv} {st : Store} {includeArchived : Bool} {limit : ℕ}

theorem Listable.valid {cardId : String} (h : Listable env st includeArchived cardId) :
    validateCardLockIdentifier cardId = .ok cardId := by
  obtain ⟨c, hfold, -⟩ := h
  obtain ⟨core, -, -, hcore, -⟩ := Store.fold_eq_some.mp hfold
  obtain ⟨r, hvalid, -⟩ := bind_eq_ok.mp hcore
  rw [hvalid, validate_eq hvalid]

/-- An identifier that is accepted is short and not empty. -/
theorem validIdentifier_bounds {cardId : String}
    (h : validateCardLockIdentifier cardId = .ok cardId) :
    cardId ≠ "" ∧ cardId.toList.length ≤ 128 := by
  constructor
  · rintro rfl
    cases h
  · unfold validateCardLockIdentifier at h
    split at h
    · cases h
    · rename_i hc
      simp only [Bool.or_eq_true, not_or, decide_eq_true_eq] at hc
      omega

/-- The cursor of a payload that a pager builds is read back by the same read and refused by any
other. -/
theorem exists_cursor {after population scope : String} {archived : Bool}
    (hafter : validateCardLockIdentifier after = .ok after) (hlimit : limit ≤ taskViewPageLimit)
    (hpopulation : population ≠ "" ∧ population.toList.length ≤ 256)
    (hscope : scope.toList.length ≤ taskViewScopeMaxCharacters) :
    ∃ cursor, taskViewCursor E (cursorPayload after archived limit population scope) = .ok cursor ∧
      ∀ scope' limit' archived', taskViewCursorPosition E (some cursor) scope' limit' archived' =
        if scope = scope' ∧ limit = limit' ∧ archived = archived' then
          .ok (some (after, population))
        else .error (.value "task-view cursor is malformed, stale, or out of scope") := by
  obtain ⟨hne, hlength⟩ := validIdentifier_bounds hafter
  obtain ⟨cursor, hcursor⟩ := taskViewCursor_ok E archived
    ⟨hlength, hlimit, hpopulation.2, hscope⟩
  refine ⟨cursor, hcursor, fun scope' limit' archived' => ?_⟩
  rw [taskViewCursorPosition_issued E (cursorPayload_wellFormed _ _ _ _ _ _) hcursor,
    boundPosition_payload]
  by_cases hsame : scope = scope' ∧ limit = limit' ∧ archived = archived'
  · have hbound : scope = scope' ∧ limit = limit' ∧ archived = archived' ∧ after ≠ "" ∧
        after.toList.length ≤ 128 ∧ population ≠ "" ∧ population.toList.length ≤ 256 :=
      ⟨hsame.1, hsame.2.1, hsame.2.2, hne, hlength, hpopulation.1, hpopulation.2⟩
    rw [if_pos hsame, if_pos hbound, hafter]
    rfl
  · rw [if_neg hsame, if_neg fun h => hsame ⟨h.1, h.2.1, h.2.2.1⟩]

/-- A listable card is listed. -/
theorem pageCard_ok {cardId : String} (h : Listable env st includeArchived cardId) :
    ∃ c, pageCard env st includeArchived cardId = .ok c ∧ c.id = cardId ∧
      Store.fold env st cardId = .ok (some c) := by
  obtain ⟨c, hfold, hid, hkind, harchived⟩ := h
  refine ⟨c, ?_, hid, hfold⟩
  unfold pageCard
  rw [hfold]
  refine if_neg ?_
  rintro (hne | hne | hne)
  · exact hne hid
  · exact hkind.elim hne.1 hne.2
  · rw [Bool.and_eq_true, Bool.not_eq_true'] at hne
    exact Bool.false_ne_true (hne.2.symm.trans (harchived hne.1))

/-- Listable cards in order are listed. -/
theorem pageCards_ok : ∀ {ids : List String} {previous : Option String},
    (∀ cardId ∈ ids, Listable env st includeArchived cardId) → ids.Pairwise (· < ·) →
    (∀ p ∈ previous, ∀ cardId ∈ ids, p < cardId) →
      ∃ cards, pageCards env st includeArchived previous ids = .ok cards ∧
        cards.map Card.id = ids ∧ ∀ c ∈ cards, Store.fold env st c.id = .ok (some c)
  | [], _, _, _, _ => ⟨[], rfl, rfl, fun _ h => nomatch h⟩
  | cardId :: ids, previous, hlist, hsorted, hprevious => by
    have hcard := hlist cardId List.mem_cons_self
    obtain ⟨hlt, hsorted⟩ := List.pairwise_cons.mp hsorted
    obtain ⟨c, hc, hid, hfold⟩ := pageCard_ok hcard
    obtain ⟨cards, hcards, hids, hfolds⟩ := pageCards_ok
      (fun i hi => hlist i (List.mem_cons_of_mem _ hi)) hsorted
      (fun p hp i hi => Option.mem_some.mp hp ▸ hlt i hi : ∀ p ∈ some cardId, ∀ i ∈ ids, p < i)
    refine ⟨c :: cards, ?_, by rw [List.map_cons, hid, hids], ?_⟩
    · have horder : ¬ previous.any fun p => decide (cardId ≤ p) := by
        cases previous with
        | none => exact Bool.false_ne_true
        | some p =>
          have hp : p < cardId := hprevious p rfl cardId List.mem_cons_self
          exact fun h => absurd (of_decide_eq_true h) (not_le.mpr hp)
      rw [pageCards, hcard.valid]
      refine bind_eq_ok.mpr ⟨cardId, rfl, ?_⟩
      rw [if_neg horder, hc, hcards]
      rfl
    · intro d hd
      rcases List.mem_cons.mp hd with rfl | hd
      · rw [hid, hfold]
      · exact hfolds d hd

theorem taskViewFromCard_viewOf {c : Card} {v : TaskView} (h : taskViewFromCard c = .ok v) :
    v = viewOf c := by
  unfold taskViewFromCard at h
  unfold viewOf
  dsimp only at h
  split at h
  · cases h
  · split at h
    · rename_i howner; cases h; rw [howner]; rfl
    · rename_i howner; cases h; rw [howner]; rfl
    · cases h

/-- The identifiers of a population behind one. -/
def Population.behind (p : Population env st includeArchived) (after : Option String) :
    List String := p.ids.filter fun cardId => after.all (· < cardId)

section

variable {p : Population env st includeArchived} {scope : TaskViewReadScope} {cursor : Option String}
  {after : Option String}

theorem Population.behind_none : p.behind none = p.ids :=
  List.filter_eq_self.mpr fun _ _ => rfl

theorem Population.behind_sorted : (p.behind after).Pairwise (· < ·) :=
  p.sorted.filter _

theorem Population.lt_of_mem_behind {a cardId : String} (h : cardId ∈ p.behind (some a)) :
    a < cardId := of_decide_eq_true (List.mem_filter.mp h).2

/-- Behind the last card of a page is what the page left over. -/
theorem Population.behind_getElem? {k : ℕ} {last : String} (h : (p.behind after)[k]? = some last) :
    p.behind (some last) = (p.behind after).drop (k + 1) := by
  rw [← filter_lt_getElem? p.behind_sorted h, Population.behind, Population.behind,
    List.filter_filter]
  have hafter : after.all (· < last) = true := (List.mem_filter.mp (List.mem_of_getElem? h)).2
  refine List.filter_congr fun cardId _ => ?_
  cases after with
  | none => simp
  | some a =>
    have ha : a < last := of_decide_eq_true hafter
    have himp : last < cardId → a < cardId := fun hlt => ha.trans hlt
    simp only [Option.all_some]
    by_cases hlt : last < cardId
    · simp [hlt, himp hlt]
    · simp [hlt]

theorem ownerBatch_eq (h : scope.Reads p) :
    ownerBatch scope limit after = .ok (p.batch after (limit + 1)) := by
  rw [ownerBatch, h after (limit + 1)]
  rfl

/-- The cursor stands behind a card of this population. -/
def StandsAt (E : CursorEnv) (p : Population env st includeArchived) (scope : TaskViewReadScope)
    (limit : ℕ) (cursor after : Option String) : Prop :=
  taskViewCursorPosition E cursor scope.authorizationScope limit includeArchived =
    .ok (after.map fun a => (a, p.state))

/-- What a page of a population is: the first cards behind the given one, as many as the limit
allows, with a cursor behind the last of them when there are more. -/
structure PageAt (E : CursorEnv) (p : Population env st includeArchived) (scope : TaskViewReadScope)
    (limit : ℕ) (after : Option String) (page : TaskViewPage) : Prop where
  items : page.items.map TaskView.taskId = (p.behind after).take limit
  hasMore : page.hasMore = decide (limit < (p.behind after).length)
  final : (p.behind after).length ≤ limit → page.nextCursor = none
  more : limit < (p.behind after).length → ∃ last cursor, (p.behind after)[limit - 1]? = some last ∧
    page.nextCursor = some cursor ∧ StandsAt E p scope limit (some cursor) (some last)

/-- What every call of this read shares: a limit, the owner, its state and the views. -/
structure Paging (p : Population env st includeArchived) (scope : TaskViewReadScope)
    (limit : ℕ) : Prop where
  limit_pos : 1 ≤ limit
  limit_le : limit ≤ taskViewPageLimit
  reads : scope.Reads p
  state_ne : p.state ≠ ""
  state_le : p.state.toList.length ≤ 256
  views : ∀ cardId ∈ p.ids, HasView env st cardId

/-- A cursor behind a listable card stands there. -/
theorem Paging.issue (h : Paging p scope limit) {last : String} (hlast : last ∈ p.ids) :
    ∃ cursor, taskViewCursor E
        (cursorPayload last includeArchived limit p.state scope.authorizationScope) = .ok cursor ∧
      StandsAt E p scope limit (some cursor) (some last) := by
  obtain ⟨cursor, hcursor, hread⟩ := exists_cursor
    (p.listable last hlast).valid h.limit_le ⟨h.state_ne, h.state_le⟩ scope.characters.2
  exact ⟨cursor, hcursor, (hread _ _ _).trans (if_pos ⟨rfl, rfl, rfl⟩)⟩

/-- The cursor behind the cards of a page. -/
theorem Paging.nextCursor (h : Paging p scope limit) {cards : List Card}
    (hcards : cards.map Card.id = (p.behind after).take (limit + 1)) :
    ∃ next, nextCursorOf E scope.authorizationScope limit includeArchived p.state cards = .ok next ∧
      ((p.behind after).length ≤ limit → next = none) ∧
      (limit < (p.behind after).length → ∃ last cursor, (p.behind after)[limit - 1]? = some last ∧
        next = some cursor ∧ StandsAt E p scope limit (some cursor) (some last)) := by
  have hlength : cards.length = min (limit + 1) (p.behind after).length := by
    rw [← List.length_map Card.id, hcards, List.length_take]
  have hpos := h.limit_pos
  have hget : (cards[limit - 1]?).map Card.id = ((p.behind after).take (limit + 1))[limit - 1]? := by
    rw [← hcards, List.getElem?_map]
  rw [List.getElem?_take_of_lt (by omega)] at hget
  by_cases hmore : limit < (p.behind after).length
  · -- the page ends before the population
    have hlt : limit - 1 < (p.behind after).length := by omega
    set last := (p.behind after)[limit - 1] with hlast
    have hlast? : (p.behind after)[limit - 1]? = some last := List.getElem?_eq_getElem hlt
    rw [hlast?] at hget
    obtain ⟨c, hc, hid⟩ := Option.map_eq_some_iff.mp hget
    have hmem : last ∈ p.ids := (List.mem_filter.mp (List.mem_of_getElem? hlast?)).1
    obtain ⟨cursor, hissued, hstands⟩ := h.issue hmem
    refine ⟨some cursor, ?_, fun hle => by omega, fun _ => ⟨last, cursor, hlast?, rfl, hstands⟩⟩
    have hlong : cards.length > limit := by omega
    rw [nextCursorOf, hc]
    dsimp only
    rw [if_pos hlong, hid, hissued]
    rfl
  · refine ⟨none, ?_, fun _ => rfl, fun hlt => absurd hlt hmore⟩
    have hshort : ¬ cards.length > limit := by omega
    rw [nextCursorOf]
    split
    · exact if_neg hshort
    · rfl

/-- **One page** holds the next identifiers and a cursor behind the last of them, if there are
more. -/
theorem page_at (h : Paging p scope limit) (hcursor : StandsAt E p scope limit cursor after) :
    ∃ page, taskViewPageFromStore env E st scope limit includeArchived cursor = .ok page ∧
      PageAt E p scope limit after page := by
  set ids := (p.behind after).take (limit + 1) with hids
  have hmem : ∀ cardId ∈ ids, cardId ∈ p.behind after := fun _ hi => List.mem_of_mem_take hi
  have hlist : ∀ cardId ∈ ids, Listable env st includeArchived cardId := fun cardId hi =>
    p.listable cardId (List.mem_filter.mp (hmem cardId hi)).1
  obtain ⟨cards, hcards, hcardIds, hfolds⟩ := @pageCards_ok env st includeArchived ids after hlist
    (p.behind_sorted.sublist (List.take_sublist _ _)) (by
      rintro a rfl cardId hi
      exact Population.lt_of_mem_behind (hmem cardId hi))
  have hlength : cards.length = min (limit + 1) (p.behind after).length := by
    rw [← List.length_map Card.id, hcardIds, hids, List.length_take]
  -- the views of the page
  have hviews : (cards.take limit).mapM taskViewFromCard = .ok ((cards.take limit).map viewOf) := by
    refine mapM_eq_map fun c hc => ?_
    have hc := List.mem_of_mem_take hc
    have hid : c.id ∈ p.ids := by
      have hin : c.id ∈ ids := hcardIds ▸ List.mem_map_of_mem hc
      exact (List.mem_filter.mp (hmem _ hin)).1
    obtain ⟨d, v, hd, hv⟩ := h.views c.id hid
    cases (hfolds c hc).symm.trans hd
    rw [hv, taskViewFromCard_viewOf hv]
  have hitems : ((cards.take limit).map viewOf).map TaskView.taskId = (p.behind after).take limit := by
    have hview : (TaskView.taskId ∘ viewOf) = Card.id := rfl
    rw [List.map_map, hview, List.map_take, hcardIds, hids, List.take_take,
      Nat.min_eq_left (Nat.le_succ limit)]
  obtain ⟨next, hnext, hfinal, hmore⟩ := @Paging.nextCursor env E _ _ _ _ _ _ h cards hcardIds
  refine ⟨⟨(cards.take limit).map viewOf, p.state, next, decide (cards.length > limit), ids.length⟩,
    ?_, ⟨hitems, ?_, hfinal, hmore⟩⟩
  · have hafter : (after.map fun a => (a, p.state)).map Prod.fst = after := by
      rw [Option.map_map]
      exact Option.map_id'
    have hbatch : ownerBatch scope limit after = .ok ⟨ids, p.state⟩ := ownerBatch_eq h.reads
    have hbound : ¬ ids.length > limit + 1 := by
      rw [hids, List.length_take]
      omega
    have hstate : ¬ (p.state = "" ∨ p.state.toList.length > 256 ∨
        (after.map fun a => (a, p.state)).any (fun q => p.state ≠ q.2)) := by
      rintro (hs | hs | hs)
      · exact h.state_ne hs
      · exact absurd h.state_le (by omega)
      · cases after with
        | none => exact Bool.false_ne_true hs
        | some a => exact of_decide_eq_true hs rfl
    have hposition : taskViewCursorPosition E cursor scope.authorizationScope limit
        includeArchived = .ok (after.map fun a => (a, p.state)) := hcursor
    rw [taskViewPageFromStore, if_neg (not_not.mpr ⟨h.limit_pos, h.limit_le⟩), hposition]
    show pageBehind env E st scope limit includeArchived (after.map fun a => (a, p.state)) = _
    rw [pageBehind, hafter, hbatch]
    refine bind_eq_ok.mpr ⟨⟨ids, p.state⟩, rfl, ?_⟩
    rw [if_neg hbound, if_neg hstate]
    exact bind_eq_ok.mpr ⟨cards, hcards, bind_eq_ok.mpr ⟨_, hviews, bind_eq_ok.mpr ⟨next, hnext, rfl⟩⟩⟩
  · show decide (cards.length > limit) = decide (limit < (p.behind after).length)
    rw [decide_eq_decide]
    omega

/-! ### The run -/

/-- The pages of a list of identifiers: in order, each with `has_more` and a next cursor but the
last. -/
structure PagesOf (pages : List TaskViewPage) (ids : List String) : Prop where
  items : pages.flatMap (fun page => page.items.map TaskView.taskId) = ids
  hasMore : ∀ i page, pages[i]? = some page → (page.hasMore = true ↔ i + 1 < pages.length)
  nextCursor : ∀ i page, pages[i]? = some page → (page.nextCursor = none ↔ i + 1 = pages.length)

/-- A page with nothing behind it is the last. -/
theorem lastPage {n : ℕ} {page : TaskViewPage}
    (hpage : taskViewPageFromStore env E st scope limit includeArchived cursor = .ok page)
    (hat : PageAt E p scope limit after page) (hshort : (p.behind after).length ≤ limit) :
    ∃ pages, readPages (taskViewPageFromStore env E st scope limit includeArchived) (n + 1)
      cursor = .ok pages ∧ PagesOf pages (p.behind after) := by
  have hnext : page.nextCursor = none := hat.final hshort
  refine ⟨[page], ?_, ?_⟩
  · rw [readPages, hpage]
    refine bind_eq_ok.mpr ⟨page, rfl, ?_⟩
    rw [hnext]
    rfl
  · have hitems : page.items.map TaskView.taskId = p.behind after := by
      rw [hat.items, List.take_of_length_le hshort]
    have hfalse : page.hasMore = false := by
      rw [hat.hasMore, decide_eq_false (Nat.not_lt.mpr hshort)]
    refine ⟨by rw [List.flatMap_cons, List.flatMap_nil, List.append_nil, hitems], ?_, ?_⟩
    · rintro (_ | i) q hq
      · cases hq
        simp [hfalse]
      · cases hq
    · rintro (_ | i) q hq
      · cases hq
        simp [hnext]
      · cases hq

/-- A page before others. -/
theorem PagesOf.cons {page : TaskViewPage} {pages : List TaskViewPage} {ids : List String}
    (hof : PagesOf pages ids) (hmore : page.hasMore = true) (hnext : page.nextCursor ≠ none)
    (hne : pages ≠ []) : PagesOf (page :: pages) (page.items.map TaskView.taskId ++ ids) := by
  have hpos : 0 < pages.length := List.length_pos_iff.mpr hne
  refine ⟨by rw [List.flatMap_cons, hof.items], ?_, ?_⟩
  · rintro (_ | i) q hq
    · cases hq
      simp [hmore, hpos]
    · rw [List.getElem?_cons_succ] at hq
      rw [hof.hasMore i q hq, List.length_cons]
      omega
  · rintro (_ | i) q hq
    · cases hq
      rw [List.length_cons]
      exact ⟨fun h => absurd h hnext, fun h => by omega⟩
    · rw [List.getElem?_cons_succ] at hq
      rw [hof.nextCursor i q hq, List.length_cons]
      omega

/-- **The pages from a cursor** are those of the identifiers behind it. -/
theorem readPages_at (h : Paging p scope limit) : ∀ (n : ℕ) {cursor after : Option String},
    StandsAt E p scope limit cursor after → (p.behind after).length ≤ n →
      ∃ pages, readPages (taskViewPageFromStore env E st scope limit includeArchived) (n + 1)
        cursor = .ok pages ∧ PagesOf pages (p.behind after) := by
  intro n
  induction n with
  | zero =>
    intro cursor after hcursor hlength
    obtain ⟨page, hpage, hat⟩ := page_at h hcursor
    have hshort : (p.behind after).length ≤ limit := by omega
    exact lastPage hpage hat hshort
  | succ n ih =>
    intro cursor after hcursor hlength
    obtain ⟨page, hpage, hat⟩ := page_at h hcursor
    by_cases hmore : limit < (p.behind after).length
    · -- the next page starts behind the last card of this one
      obtain ⟨last, next, hlast, hnext, hstands⟩ := hat.more hmore
      have hpos := h.limit_pos
      have hbehind : p.behind (some last) = (p.behind after).drop limit := by
        rw [Population.behind_getElem? hlast, Nat.sub_add_cancel hpos]
      have hrest : (p.behind (some last)).length ≤ n := by
        rw [hbehind, List.length_drop]
        omega
      obtain ⟨pages, hpages, hof⟩ := ih hstands hrest
      refine ⟨page :: pages, ?_, ?_⟩
      · rw [readPages, hpage]
        refine bind_eq_ok.mpr ⟨page, rfl, ?_⟩
        rw [hnext]
        exact bind_eq_ok.mpr ⟨pages, hpages, rfl⟩
      · have hids : p.behind after = page.items.map TaskView.taskId ++ p.behind (some last) := by
          rw [hat.items, hbehind, List.take_append_drop]
        have hne : pages ≠ [] := by
          rintro rfl
          have hnil : p.behind (some last) = [] := hof.items.symm
          rw [hbehind, List.drop_eq_nil_iff] at hnil
          omega
        rw [hids]
        refine hof.cons ?_ (by rw [hnext]; exact Option.some_ne_none _) hne
        rw [hat.hasMore, decide_eq_true hmore]
    · exact lastPage hpage hat (Nat.not_lt.mp hmore)

/-- A cursor of another read is refused. -/
theorem cursor_refused (hreads : scope.Reads p) {last : String} {archived : Bool} {limit' : ℕ}
    {population scope' issued : String}
    (hissued : taskViewCursor E (cursorPayload last archived limit' population scope') = .ok issued)
    (hother : scope' ≠ scope.authorizationScope ∨ limit' ≠ limit ∨ archived ≠ includeArchived ∨
      population ≠ p.state) :
    ∃ msg, taskViewPageFromStore env E st scope limit includeArchived (some issued) =
      .error (.value msg) := by
  have hposition := taskViewCursorPosition_issued E (cursorPayload_wellFormed ..) hissued
    scope.authorizationScope limit includeArchived
  rw [boundPosition_payload] at hposition
  unfold taskViewPageFromStore
  split
  · exact ⟨_, rfl⟩
  · rw [hposition]
    split_ifs with hbound
    · obtain ⟨hscope, hlimit, harchived, -⟩ := hbound
      have hpopulation : population ≠ p.state := by
        rcases hother with h | h | h | h
        · exact absurd hscope h
        · exact absurd hlimit h
        · exact absurd harchived h
        · exact h
      cases validateCardLockIdentifier last with
      | error e => exact ⟨_, rfl⟩
      | ok last =>
        -- the read finds another population state than the cursor names
        have hlength : ¬ (p.batch (some last) (limit + 1)).cardIds.length > limit + 1 := by
          rw [Population.batch, List.length_take]
          omega
        have hstale : (some (last, population)).any (fun q => p.state ≠ q.2) = true :=
          decide_eq_true (Ne.symm hpopulation)
        refine ⟨"task-view cursor population is stale", ?_⟩
        show pageBehind env E st scope limit includeArchived (some (last, population)) = _
        rw [pageBehind, Option.map_some, ownerBatch_eq hreads]
        show (if _ then _ else if _ then _ else _ : Except PyError TaskViewPage) = _
        rw [if_neg hlength]
        exact if_pos (Or.inr (Or.inr hstale))
    · exact ⟨_, rfl⟩

end

/-- **Pagination is complete** for a population whose cards have task views: the pages from no
cursor to no next cursor hold its identifiers once and in order, and a cursor of another read is
refused. -/
theorem task_view_pages_complete (env : Env) (E : CursorEnv) (st : Store) (includeArchived : Bool)
    (limit : ℕ) (hlimit : 1 ≤ limit ∧ limit ≤ taskViewPageLimit)
    (p : Population env st includeArchived) (scope : TaskViewReadScope) (hreads : scope.Reads p)
    (hstate : p.state ≠ "" ∧ p.state.toList.length ≤ 256)
    (hviews : ∀ cardId ∈ p.ids, HasView env st cardId) :
    (∃ pages, readPages (taskViewPageFromStore env E st scope limit includeArchived)
        (p.ids.length + 1) none = .ok pages ∧ PagesOf pages p.ids) ∧
      ∀ last archived limit' population scope' issued,
        taskViewCursor E (cursorPayload last archived limit' population scope') = .ok issued →
        (scope' ≠ scope.authorizationScope ∨ limit' ≠ limit ∨ archived ≠ includeArchived ∨
          population ≠ p.state) →
        ∃ msg, taskViewPageFromStore env E st scope limit includeArchived (some issued) =
          .error (.value msg) := by
  have hpaging : Paging p scope limit :=
    ⟨hlimit.1, hlimit.2, hreads, hstate.1, hstate.2, hviews⟩
  have hstart : StandsAt E p scope limit none none := rfl
  have hall : p.behind none = p.ids := Population.behind_none
  constructor
  · have hpages := readPages_at hpaging p.ids.length hstart (le_of_eq (congrArg List.length hall))
    rwa [hall] at hpages
  · intro last archived limit' population scope' issued hissued hother
    exact cursor_refused hreads hissued hother

/-! ### Two cards, page by page -/

/-- A digest that does not depend on the text. -/
def zeroCursor : CursorEnv where
  floats := zeroFloats
  digest := fun _ => List.replicate 32 0
  length_digest := fun _ => List.length_replicate

theorem twoCardStore_listable (cardId : String) (h : cardId ∈ ["a", "b"]) :
    Listable hostEnv twoCardStore false cardId := by
  rcases List.mem_pair.mp h with rfl | rfl
  · exact ⟨_, rfl, rfl, Or.inl rfl, id⟩
  · exact ⟨_, rfl, rfl, Or.inl rfl, id⟩

theorem a_lt_b : ["a", "b"].Pairwise (· < ·) := by decide

/-- The two cards of a store. -/
def twoCardPopulation (state : String) : Population hostEnv twoCardStore false where
  ids := ["a", "b"]
  sorted := a_lt_b
  listable := twoCardStore_listable
  state := state

theorem tenant_characters :
    1 ≤ "tenant".toList.length ∧ "tenant".toList.length ≤ taskViewScopeMaxCharacters := by decide

theorem tenant_bytes : "tenant".utf8ByteSize ≤ taskViewScopeMaxBytes := by decide

/-- The owner of a population. -/
def ownerScope {env : Env} {st : Store} {includeArchived : Bool}
    (p : Population env st includeArchived) : TaskViewReadScope where
  authorizationScope := "tenant"
  readPage := fun after count => .ok (p.batch after count)
  characters := tenant_characters
  bytes := tenant_bytes

/-- Two cards in pages of one: two pages and no cursor behind the second. -/
theorem task_view_pages_of_two : ∃ pages,
    readPages (taskViewPageFromStore hostEnv zeroCursor twoCardStore
      (ownerScope (twoCardPopulation "s")) 1 false) 3 none = .ok pages ∧ PagesOf pages ["a", "b"] :=
  (task_view_pages_complete hostEnv zeroCursor twoCardStore false 1 (by decide)
    (twoCardPopulation "s") (ownerScope (twoCardPopulation "s")) (fun _ _ => rfl) (by decide) (by
      intro cardId h
      rcases List.mem_pair.mp h with rfl | rfl
      · exact ⟨_, _, rfl, rfl⟩
      · exact ⟨_, _, rfl, rfl⟩)).1

/-- The two cards after a description of the first with a title that is no text. -/
def describedStore : Store :=
  match Store.appendEvent hostEnv twoCardStore "a" "describe" "bob" [("title", .int 7)]
    { eventId := "e1", ts := "2026-01-01" } with
  | .ok r => r.1
  | .error _ => twoCardStore

theorem describedStore_listable (cardId : String) (h : cardId ∈ ["a", "b"]) :
    Listable hostEnv describedStore false cardId := by
  rcases List.mem_pair.mp h with rfl | rfl
  · exact ⟨_, rfl, rfl, Or.inl rfl, id⟩
  · exact ⟨_, rfl, rfl, Or.inl rfl, id⟩

/-- The cards of that store. -/
def describedPopulation : Population hostEnv describedStore false where
  ids := ["a", "b"]
  sorted := a_lt_b
  listable := describedStore_listable
  state := "s"

/-- A page that raises ends the reading. -/
theorem readPages_of_error {page : Option String → Except PyError TaskViewPage} {e : PyError}
    (h : page none = .error e) (n : ℕ) : ¬∃ pages, readPages page n none = .ok pages := by
  rintro ⟨pages, hpages⟩
  cases n with
  | zero => cases hpages
  | succ n =>
    rw [readPages, h] at hpages
    cases hpages

/-- A card that folds with a title that is no text has no task view, and a population without a
state is refused: neither is read to its end. -/
theorem pages_stop :
    (∀ E scope, scope.Reads describedPopulation → ∀ n, ¬∃ pages,
      readPages (taskViewPageFromStore hostEnv E describedStore scope 1 false) n none = .ok pages) ∧
    ∀ E scope, scope.Reads (twoCardPopulation "") → ∀ n, ¬∃ pages,
      readPages (taskViewPageFromStore hostEnv E twoCardStore scope 1 false) n none = .ok pages := by
  constructor
  · intro E scope hreads n
    refine readPages_of_error (e := .value "validation error for Task") ?_ n
    show pageBehind hostEnv E describedStore scope 1 false none = _
    rw [pageBehind, Option.map_none, ownerBatch_eq hreads]
    rfl
  · intro E scope hreads n
    refine readPages_of_error (e := stalePopulation) ?_ n
    show pageBehind hostEnv E twoCardStore scope 1 false none = _
    rw [pageBehind, Option.map_none, ownerBatch_eq hreads]
    rfl

/-! ### The codec of cursors -/

/-- **The codec of cursors**: every payload of a pager becomes a cursor within the size contract,
which names its card and its population to a read with the same scope, limit and archive mode, and
is refused by any other. -/
theorem cursor_codec (E : CursorEnv) (after : String) (archived : Bool) (limit : ℕ)
    (population scope : String) (hafter : validateCardLockIdentifier after = .ok after)
    (hlimit : 1 ≤ limit ∧ limit ≤ taskViewPageLimit)
    (hpopulation : 1 ≤ population.toList.length ∧ population.toList.length ≤ 256)
    (hscope : scope.toList.length ≤ taskViewScopeMaxCharacters ∧
      scope.utf8ByteSize ≤ taskViewScopeMaxBytes) :
    ∃ cursor, taskViewCursor E (cursorPayload after archived limit population scope) = .ok cursor ∧
      cursor.length ≤ taskViewCursorMaxEncodedBytes ∧
      ∀ scope' limit' archived', taskViewCursorPosition E (some cursor) scope' limit' archived' =
        if scope = scope' ∧ limit = limit' ∧ archived = archived' then
          .ok (some (after, population))
        else .error (.value "task-view cursor is malformed, stale, or out of scope") := by
  have hfull : population ≠ "" := by
    rintro rfl
    exact absurd hpopulation.1 (by decide)
  obtain ⟨cursor, hcursor, hread⟩ := exists_cursor hafter hlimit.2 ⟨hfull, hpopulation.2⟩ hscope.1
  refine ⟨cursor, hcursor, ?_, hread⟩
  unfold taskViewCursor at hcursor
  dsimp only at hcursor
  split at hcursor
  · cases hcursor
  · rename_i hsize
    rw [← pure_eq_ok.mp hcursor, String.length_ofList]
    exact Nat.not_lt.mp hsize

/-- A card whose name is not ASCII, in a population whose state has control characters: the cursor
leads back to both, and to nothing for another scope, limit or archive mode. -/
theorem cursor_codec_escaped :
    ∃ cursor, taskViewCursor zeroCursor (cursorPayload "card-é" true 200 "\n\u0000" "tenant") =
        .ok cursor ∧
      cursor.length ≤ taskViewCursorMaxEncodedBytes ∧
      ∀ scope' limit' archived', taskViewCursorPosition zeroCursor (some cursor) scope' limit'
          archived' =
        if "tenant" = scope' ∧ 200 = limit' ∧ true = archived' then
          .ok (some ("card-é", "\n\u0000"))
        else .error (.value "task-view cursor is malformed, stale, or out of scope") :=
  cursor_codec zeroCursor "card-é" true 200 "\n\u0000" "tenant" (by decide +kernel) (by decide)
    (by decide) ⟨tenant_characters.2, tenant_bytes⟩

end SkCoord
