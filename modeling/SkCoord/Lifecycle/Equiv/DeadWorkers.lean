import SkCoord.Lifecycle.Equiv.Damage

/-!
# The claims of dead workers

An ephemeral worker that has left neither evidence nor a blocked outcome since a claim that is older
than `dead_worker_after` is dead.  A turn of the loop leaves claims that are younger than
`stale_after` before it looks at anything, so `findsDeadWorkers_iff` has a condition: no dead worker
holds such a claim.
-/

namespace SkCoord.Reassessment

open Python

/-! ### Dead workers -/

section

variable (E : AssessEnv) (q : AssessQuery) (rows : List EvidenceRow) (r : CardRecord)

/-- The current claim of a record, with its time. -/
def HasClaim (claim : Event) (claimedAt : DateTime) : Prop :=
  currentClaim r.events = .ok (some claim) ∧ parseTime E (claim.get "ts") = .ok (some claimedAt)

/-- The owner of a claim is an ephemeral worker. -/
def IsEphemeral (claim : Event) : Prop :=
  ephemeralOwnerRe (E.format ((claim.get "owner").orElse (.str ""))) = true

/-- Some row is of a time or later, or has no time. -/
def EvidenceSince (after : DateTime) : Prop :=
  ∃ row ∈ rows, ∃ t, parseTime E row.ts = .ok t ∧ 0 ≤ (t.getD after).gap after

/-- Some event or some row records a blocked outcome, at a time or later. -/
def BlockedSince (after : DateTime) : Prop :=
  (∃ e ∈ r.events, ∃ t, parseTime E (Dict.get e "ts") = .ok t ∧
    notBefore after t = true ∧ isBlockedVerdict E e = true) ∨
  ∃ row ∈ rows, ∃ t, parseTime E row.ts = .ok t ∧
    notBefore after t = true ∧ (blockedRow E row).isSome

/-- **A dead worker** has claimed the card at a time. -/
def DeadSince (claimedAt : DateTime) : Prop :=
  ∃ claim, HasClaim E r claim claimedAt ∧ IsEphemeral E claim ∧
    q.deadWorkerAfter ≤ q.now.gap claimedAt ∧
    ¬EvidenceSince E rows claimedAt ∧ ¬BlockedSince E rows r claimedAt

end

/-- The cards of `dead_worker_claims`. -/
def AssessReport.deadCards (report : AssessReport) : List String :=
  report.classes.deadWorkerClaims.map ClaimEntry.cardId

/-- An assessment returns, lists the cards of dead workers and spares those of others and those with
evidence. -/
structure FindsDeadWorkers (E : AssessEnv) (files : AssessFiles) (q : AssessQuery) : Prop where
  returns : ∃ report, assess E files q = .ok report
  listed : ∀ report, assess E files q = .ok report → ∀ p ∈ files.records E, ∀ claimedAt,
    DeadSince E q (rowsOf (files.rows E) p.2) p.2 claimedAt → p.2.cardId ∈ report.deadCards
  spared : ∀ report, assess E files q = .ok report → ∀ p ∈ files.records E, ∀ claim claimedAt,
    HasClaim E p.2 claim claimedAt →
      EvidenceSince E (rowsOf (files.rows E) p.2) claimedAt ∨ ¬IsEphemeral E claim →
        p.2.cardId ∉ report.deadCards

section

variable {E : AssessEnv} {q : AssessQuery} {rows : List EvidenceRow} {r : CardRecord}
  {files : AssessFiles}

/-! ### The loops over times -/

/-- A loop that parses a time in each turn and keeps a hit returns one when there is one. -/
theorem isSome_foldlM_parseTime {α γ : Type} (ts : α → Json)
    {next : Option γ → α → Option DateTime → Option γ} (hit : α → Option DateTime → Prop)
    (hnext : ∀ b a t, (next b a t).isSome ↔ b.isSome ∨ hit a t) :
    ∀ {l : List α} {b c : Option γ},
      l.foldlM (fun b a => do
        let time ← parseTime E (ts a)
        pure (next b a time)) b = Except.ok c →
      (c.isSome ↔ b.isSome ∨ ∃ a ∈ l, ∃ t, parseTime E (ts a) = .ok t ∧ hit a t)
  | [], b, c, h => by
    cases h
    simp
  | a :: l, b, c, h => by
    rw [foldlM_cons_eq_ok] at h
    obtain ⟨b', hstep, h⟩ := h
    obtain ⟨t, ht, hb'⟩ := bind_eq_ok.mp hstep
    rw [isSome_foldlM_parseTime ts hit hnext h, ← pure_eq_ok.mp hb', hnext, List.exists_mem_cons_iff,
      or_assoc, ht]
    simp

theorem blockedEvidenceAfter_isSome {after : DateTime} {blocked : Option Dict}
    (h : blockedEvidenceAfter E r after rows = .ok blocked) :
    blocked.isSome ↔ BlockedSince E rows r after := by
  unfold blockedEvidenceAfter at h
  obtain ⟨structural, hevents, hrows⟩ := bind_eq_ok.mp h
  have hstructural := isSome_foldlM_parseTime (fun e : Event => e.get "ts")
    (fun e t => notBefore after t = true ∧ isBlockedVerdict E e = true)
    (fun b e t => by
      cases hhit : notBefore after t && isBlockedVerdict E e <;> simp_all) hevents
  have hblocked := isSome_foldlM_parseTime EvidenceRow.ts
    (fun row t => notBefore after t = true ∧ (blockedRow E row).isSome)
    (fun b row t => by
      cases hhit : notBefore after t <;> simp [or_comm]) hrows
  rw [hblocked, hstructural]
  simp [BlockedSince]

theorem producedAnything_eq_ok {after : DateTime} : ∀ {rows : List EvidenceRow} {produced : Bool},
    producedAnything E after rows = .ok produced → (produced = true ↔ EvidenceSince E rows after)
  | [], produced, h => by
    cases h
    simp [EvidenceSince]
  | row :: rows, produced, h => by
    rw [producedAnything] at h
    obtain ⟨t, ht, h⟩ := bind_eq_ok.mp h
    unfold EvidenceSince
    rw [List.exists_mem_cons_iff, ht]
    by_cases hsince : 0 ≤ (t.getD after).gap after
    · rw [if_pos hsince] at h
      cases h
      simp [hsince]
    · rw [if_neg hsince] at h
      rw [producedAnything_eq_ok h]
      simp [EvidenceSince, hsince]

/-! ### The entries of one card -/

/-- The entry of a claim that is old enough. -/
theorem claimEntries_dead {claim : Event} {claimedAt : DateTime}
    {entries : List ClaimEntry × List ClaimEntry}
    (h : claimEntries E q r rows claim claimedAt = .ok entries) :
    (∀ entry ∈ entries.2, entry.cardId = r.cardId) ∧
    (entries.2 ≠ [] ↔ IsEphemeral E claim ∧ q.deadWorkerAfter ≤ q.now.gap claimedAt ∧
      ¬EvidenceSince E rows claimedAt ∧ ¬BlockedSince E rows r claimedAt) := by
  unfold claimEntries at h
  obtain ⟨blocked, hblocked, h⟩ := bind_eq_ok.mp h
  rw [← blockedEvidenceAfter_isSome hblocked]
  cases blocked with
  | some blocked =>
    cases h
    simp
  | none =>
    obtain ⟨produced, hproduced, h⟩ := bind_eq_ok.mp h
    rw [← producedAnything_eq_ok hproduced, ← pure_eq_ok.mp h]
    unfold IsEphemeral
    dsimp only
    split
    · rename_i hdead
      simp only [Bool.and_eq_true, Bool.not_eq_true', decide_eq_true_eq] at hdead
      refine ⟨fun entry hentry => by rw [List.mem_singleton.mp hentry], ?_⟩
      refine iff_of_true (List.cons_ne_nil _ _) ⟨hdead.1.2, hdead.2, ?_, Bool.false_ne_true⟩
      rw [hdead.1.1]
      exact Bool.false_ne_true
    · rename_i hdead
      refine ⟨fun _ hentry => absurd hentry List.not_mem_nil, iff_of_false (by simp) ?_⟩
      rintro ⟨hephemeral, hage, hproduced, -⟩
      refine hdead ?_
      simp [hephemeral, hage, hproduced]

/-- A turn of the loop lists a card whose claim is stale as well as dead. -/
theorem assessClaim_dead {evidence : Assoc String (List EvidenceRow)}
    {entries : List ClaimEntry × List ClaimEntry}
    (h : assessClaim E q evidence r = .ok entries) :
    (∀ entry ∈ entries.2, entry.cardId = r.cardId) ∧
    (entries.2 ≠ [] ↔ ∃ claimedAt, DeadSince E q (rowsOf evidence r) r claimedAt ∧
      q.staleAfter ≤ q.now.gap claimedAt) := by
  unfold assessClaim at h
  obtain ⟨found, hfound, h⟩ := bind_eq_ok.mp h
  cases found with
  | none =>
    cases h
    refine ⟨fun _ hentry => absurd hentry List.not_mem_nil, iff_of_false (by simp) ?_⟩
    rintro ⟨_, ⟨claim, ⟨hclaim, -⟩, -⟩, -⟩
    cases hfound.symm.trans hclaim
  | some claim =>
    obtain ⟨time, htime, h⟩ := bind_eq_ok.mp h
    -- the claim and its time are those of a dead worker, if there is one
    have hthis : ∀ {claim' claimedAt}, HasClaim E r claim' claimedAt →
        claim' = claim ∧ time = some claimedAt := by
      rintro claim' claimedAt ⟨hclaim, hat⟩
      cases hfound.symm.trans hclaim
      exact ⟨rfl, Except.ok.inj (htime.symm.trans hat)⟩
    cases time with
    | none =>
      cases h
      refine ⟨fun _ hentry => absurd hentry List.not_mem_nil, iff_of_false (by simp) ?_⟩
      rintro ⟨_, ⟨claim', hclaim, -⟩, -⟩
      cases (hthis hclaim).2
    | some claimedAt =>
      dsimp only at h
      split at h
      · rename_i hyoung
        cases h
        refine ⟨fun _ hentry => absurd hentry List.not_mem_nil, iff_of_false (by simp) ?_⟩
        rintro ⟨_, ⟨claim', hclaim, -⟩, hstale⟩
        cases (hthis hclaim).2
        omega
      · rename_i hold
        obtain ⟨hcard, hentries⟩ := claimEntries_dead h
        refine ⟨hcard, hentries.trans ⟨?_, ?_⟩⟩
        · intro hdead
          exact ⟨claimedAt, ⟨claim, ⟨hfound, htime⟩, hdead⟩, by omega⟩
        · rintro ⟨_, ⟨claim', hclaim, hdead⟩, -⟩
          obtain ⟨rfl, heq⟩ := hthis hclaim
          cases heq
          exact hdead

/-! ### The report -/

theorem recordsById_spec (records : List CardRecord) :
    (Assoc.keys (recordsById records)).Nodup ∧ ∀ p ∈ recordsById records, p.1 = p.2.cardId :=
  Assoc.foldl_set_key CardRecord.cardId records

/-- A card has one record. -/
theorem record_unique {p p' : String × CardRecord} (hp : p ∈ files.records E)
    (hp' : p' ∈ files.records E) (h : p.2.cardId = p'.2.cardId) : p = p' := by
  obtain ⟨hnodup, hkey⟩ := recordsById_spec (files.cardDirs.filterMap fun p => p.2.record E p.1)
  have hkeys : p.1 = p'.1 := by rw [hkey p hp, hkey p' hp', h]
  have hget := Assoc.get?_of_mem hnodup (k := p.1) (v := p.2) hp
  rw [hkeys, Assoc.get?_of_mem hnodup (k := p'.1) (v := p'.2) hp'] at hget
  exact Prod.ext hkeys (Option.some.inj hget).symm

/-- **The cards that an assessment lists**: those that a dead worker has claimed before
`stale_after`. -/
theorem mem_deadCards_iff {report : AssessReport} (h : assess E files q = .ok report)
    {p : String × CardRecord} (hp : p ∈ files.records E) :
    p.2.cardId ∈ report.deadCards ↔
      ∃ claimedAt, DeadSince E q (rowsOf (files.rows E) p.2) p.2 claimedAt ∧
        q.staleAfter ≤ q.now.gap claimedAt := by
  obtain ⟨-, hclasses, -⟩ := assess_eq_ok_iff.mp h
  unfold classify at hclasses
  simp only [bind_eq_ok, pure_eq_ok] at hclasses
  obtain ⟨_, -, claims, hclaims, _, -, hclasses⟩ := hclasses
  have hmem : p.2.cardId ∈ report.deadCards ↔
      ∃ entries ∈ claims, ∃ entry ∈ entries.2, entry.cardId = p.2.cardId := by
    rw [AssessReport.deadCards, ← hclasses]
    dsimp only
    rw [sortedByCard, List.mem_map]
    simp only [(List.perm_insertionSort _ _).mem_iff, List.mem_flatMap]
    constructor
    · rintro ⟨entry, ⟨entries, hentries, hentry⟩, hcard⟩
      exact ⟨entries, hentries, entry, hentry, hcard⟩
    · rintro ⟨entries, hentries, entry, hentry, hcard⟩
      exact ⟨entry, ⟨entries, hentries, hentry⟩, hcard⟩
  rw [hmem]
  constructor
  · rintro ⟨entries, hentries, entry, hentry, hcard⟩
    obtain ⟨p', hp', hassess⟩ := (mem_mapM_iff hclaims entries).mp hentries
    obtain ⟨hown, hdead⟩ := assessClaim_dead hassess
    -- the entry is about this card, so it is of this record
    obtain rfl := record_unique hp' hp ((hown entry hentry).symm.trans hcard)
    exact hdead.mp (List.ne_nil_of_mem hentry)
  · intro hstale
    obtain ⟨entries, hentries, hassess⟩ := mapM_ok_of_mem hclaims p hp
    obtain ⟨hown, hdead⟩ := assessClaim_dead hassess
    obtain ⟨entry, hentry⟩ := List.exists_mem_of_ne_nil _ (hdead.mpr hstale)
    exact ⟨entries, hentries, entry, hentry, hown entry hentry⟩

/-- A record has one claim, with one time. -/
theorem HasClaim.unique {claim claim' : Event} {t t' : DateTime} (h : HasClaim E r claim t)
    (h' : HasClaim E r claim' t') : claim = claim' ∧ t = t' := by
  cases h.1.symm.trans h'.1
  cases h.2.symm.trans h'.2
  exact ⟨rfl, rfl⟩

/-- **Dead workers are found** exactly when the files can be assessed and no dead worker has claimed
a card less than `stale_after` ago. -/
theorem findsDeadWorkers_iff (E : AssessEnv) (files : AssessFiles) (q : AssessQuery) :
    FindsDeadWorkers E files q ↔
      (files.Reads E ∧ ∀ p ∈ files.records E, Classifiable E q (rowsOf (files.rows E) p.2) p.2) ∧
      ∀ p ∈ files.records E, ∀ claimedAt,
        DeadSince E q (rowsOf (files.rows E) p.2) p.2 claimedAt →
          q.staleAfter ≤ q.now.gap claimedAt := by
  rw [← assess_isOk_iff, isOk_iff]
  constructor
  · rintro ⟨⟨report, hreport⟩, hlisted, -⟩
    refine ⟨⟨report, hreport⟩, fun p hp claimedAt hdead => ?_⟩
    obtain ⟨claimedAt', ⟨claim', hclaim', -⟩, hstale⟩ :=
      (mem_deadCards_iff hreport hp).mp (hlisted report hreport p hp claimedAt hdead)
    obtain ⟨claim, hclaim, -⟩ := hdead
    rw [(hclaim.unique hclaim').2]
    exact hstale
  · rintro ⟨hreturns, hold⟩
    refine ⟨hreturns, fun report hreport p hp claimedAt hdead => ?_,
      fun report hreport p hp claim claimedAt hclaim hother hmem => ?_⟩
    · exact (mem_deadCards_iff hreport hp).mpr ⟨claimedAt, hdead, hold p hp claimedAt hdead⟩
    · obtain ⟨_, ⟨claim', hclaim', hephemeral, -, hnone, -⟩, -⟩ :=
        (mem_deadCards_iff hreport hp).mp hmem
      obtain ⟨rfl, rfl⟩ := hclaim.unique hclaim'
      exact hother.elim hnone fun hnot => hnot hephemeral

/-! ### Files that `json.dumps` has written -/

theorem lineObject_dumps (hE : E.loads = Json.loads E.floats) {d : Dict}
    (hd : (Json.obj d).WellFormed E.floats) (y : JsonLayout) :
    lineObject E ((Json.obj d).dumps E.floats y) = .ok d := by
  rw [lineObject, hE, Json.loads_dumps _ _ hd]

/-- A file with the text of one object holds that object. -/
theorem logObjects_dumps (hE : E.loads = Json.loads E.floats) {d : Dict}
    (hd : (Json.obj d).WellFormed E.floats) (y : JsonLayout) :
    logObjects E (encodeUtf8 ((Json.obj d).dumps E.floats y)) = [d] := by
  have hline := isLine_dumps E.floats y d
  have hobject := lineObject_dumps hE hd y
  have hlines : intactLines E (encodeUtf8 ((Json.obj d).dumps E.floats y)) =
      [(Json.obj d).dumps E.floats y] := by
    rw [intactLines_eq (decodeUtf8_encodeUtf8 _), splitlines_unbroken hline.unbroken hline.ne_nil,
      List.filter_singleton, isObjectLine, hobject]
    rfl
  rw [logObjects, hlines, List.filterMap_cons, hobject]
  rfl

theorem coreObject_dumps (hE : E.loads = Json.loads E.floats) {d : Dict}
    (hd : (Json.obj d).WellFormed E.floats) (y : JsonLayout) :
    coreObject E (encodeUtf8 ((Json.obj d).dumps E.floats y)) = .ok d := by
  rw [coreObject, decodeUtf8_encodeUtf8, Option.bind_some, hE, Json.loads_dumps _ _ hd]

end

/-! ### A worker that died twelve hours ago -/

/-- An environment in which one text is a time. -/
def noonEnv : AssessEnv where
  floats := zeroFloats
  tooLong := fun _ => false
  tooDeep := fun _ => false
  tables := asciiTables
  repr := fun _ => ""
  fromIsoformat := fun text =>
    if text = "2026-10-09T12:00:00+00:00" then
      some { wall := 63927144000000000, offset := some 0 }
    else none
  errorText := fun _ => "ValueError"

/-- The claim of an ephemeral worker at noon. -/
def noonClaim : Event :=
  [("action", .str "claim"), ("owner", .str "pi-auto-1"), ("ts", .str "2026-10-09T12:00:00+00:00")]

/-- A card with that claim. -/
def noonFiles : AssessFiles where
  cardsDir := "cards"
  cards := [("c1", {
    core := some (encodeUtf8 ((Json.obj [("id", .str "c1")]).dumps zeroFloats .spaced))
    events := [("h.jsonl", encodeUtf8 ((Json.obj noonClaim).dumps zeroFloats .spaced))] })]

/-- An assessment at midnight, with the thresholds of 24 and of 6 hours. -/
def midnightQuery : AssessQuery where
  now := { wall := 63927187200000000, offset := some 0 }

/-- The record of that card. -/
def noonRecord : CardRecord where
  cardId := "c1"
  core := [("id", .str "c1")]
  events := [noonClaim]

theorem noonFiles_records : noonFiles.records noonEnv = [("c1", noonRecord)] := by
  have hcore : coreObject noonEnv (encodeUtf8
      ((Json.obj [("id", .str "c1")]).dumps zeroFloats .spaced)) = .ok [("id", .str "c1")] :=
    coreObject_dumps (E := noonEnv) rfl
      (by simp [Json.WellFormed, Json.FieldsWellFormed, Assoc.keys]) _
  have hlog : logObjects noonEnv (encodeUtf8 ((Json.obj noonClaim).dumps zeroFloats .spaced)) =
      [noonClaim] :=
    logObjects_dumps (E := noonEnv) rfl
      (by simp [noonClaim, Json.WellFormed, Json.FieldsWellFormed, Assoc.keys]) _
  have hjsonl : endsWith "h.jsonl" ".jsonl" = true := by decide
  rw [AssessFiles.records, AssessFiles.cardDirs, noonFiles]
  simp only [List.insertionSort, List.orderedInsert, List.foldr, List.filterMap_cons,
    List.filterMap_nil,
    CardFiles.record, CardFiles.intactCore, CardFiles.objects, Option.bind_some, hcore, jsonlFiles,
    List.filter_cons, List.filter_nil, hjsonl, if_true, List.flatMap_cons, List.flatMap_nil, hlog]
  rfl

/-- The card is not listed: its claim is older than 6 hours, but not older than 24. -/
theorem noonFiles_not_found : ¬FindsDeadWorkers noonEnv noonFiles midnightQuery := by
  rintro ⟨⟨report, hreport⟩, hlisted, -⟩
  have hmem : ("c1", noonRecord) ∈ noonFiles.records noonEnv := by
    rw [noonFiles_records]
    exact List.mem_singleton_self _
  have hclaim : HasClaim noonEnv noonRecord noonClaim
      { wall := 63927144000000000, offset := some 0 } :=
    ⟨rfl, by decide +kernel⟩
  have hephemeral : IsEphemeral noonEnv noonClaim := by
    unfold IsEphemeral
    decide +kernel
  have hdead : DeadSince noonEnv midnightQuery [] noonRecord
      { wall := 63927144000000000, offset := some 0 } := by
    refine ⟨noonClaim, hclaim, hephemeral, by decide, ?_, ?_⟩
    · rintro ⟨row, hrow, -⟩
      exact List.not_mem_nil hrow
    · rintro (⟨e, he, t, -, -, hblocked⟩ | ⟨row, hrow, -⟩)
      · rw [List.mem_singleton.mp he] at hblocked
        cases hblocked
      · exact List.not_mem_nil hrow
  obtain ⟨_, ⟨claim, hclaim', -⟩, hstale⟩ :=
    (mem_deadCards_iff hreport hmem).mp (hlisted report hreport _ hmem _ hdead)
  rw [← (hclaim.unique hclaim').2] at hstale
  exact absurd hstale (by decide)

end SkCoord.Reassessment
