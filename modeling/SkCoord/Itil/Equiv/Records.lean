import SkCoord.Itil.Equiv.Approval
import SkCoord.Itil.Records

/-!
# Damaged records

`loadRecords` folds one record after the other, and an error of a fold is caught.  An error of
`readEvents` is not: the lists of records return exactly when the logs of every record with a core
are `Readable` (`lists_tolerate_iff`).  Where they return, each record is folded from its own files
(`foldRecord_without`).
-/

namespace SkCoord.Itil

open Python

/-! ### One record -/

/-- The values on the lines of a log that holds a text. -/
def Reader.values (r : Reader) (content : Bytes) : List Json :=
  (((decodeUtf8 content).map nonBlankLines).getD []).filterMap (Json.loads r.floats)

/-- The events of a record, in the order of the files. -/
def RecordDir.objects (r : Reader) (d : RecordDir) : List RecordEvent :=
  (d.sortedLogs.flatMap fun log => r.values log.2).filterMap fun
    | .obj e => some e
    | _ => none

/-- The logs of a record are texts whose JSON lines hold objects, and the keys of the objects have
an order. -/
structure RecordDir.Readable (r : Reader) (d : RecordDir) : Prop where
  decoded : ∀ log ∈ d.sortedLogs, ∃ text, decodeUtf8 log.2 = some text ∧
    ∀ line ∈ nonBlankLines text, r.refusal line = none
  objects : ∀ log ∈ d.sortedLogs, ∀ v ∈ r.values log.2, ∃ e, v = .obj e
  ordered : (d.objects r).Pairwise fun a b => SortKey.Comparable (recordKey a) (recordKey b)

variable {r : Reader} {d : RecordDir}

theorem readLog_eq_ok {file : String × Bytes} {values : List Json} :
    r.readLog file = .ok values ↔
      (∃ text, decodeUtf8 file.2 = some text ∧
        ∀ line ∈ nonBlankLines text, r.refusal line = none) ∧ values = r.values file.2 := by
  have hline : ∀ line v, r.readLine line = .ok v →
      r.refusal line = none ∧ v = Json.loads r.floats line := by
    intro line v hv
    unfold Reader.readLine at hv
    cases hrefusal : r.refusal line with
    | some e => rw [hrefusal] at hv; cases hv
    | none => rw [hrefusal] at hv; exact ⟨rfl, (pure_eq_ok.mp hv).symm⟩
  rw [Reader.readLog, bind_eq_ok]
  constructor
  · rintro ⟨text, htext, h⟩
    obtain ⟨read, hread, h⟩ := bind_eq_ok.mp h
    have htext := readText_eq_ok.mp htext
    refine ⟨⟨text, htext, fun line hmem => ?_⟩, ?_⟩
    · obtain ⟨v, -, hv⟩ := mapM_ok_of_mem hread line hmem
      exact (hline line v hv).1
    · rw [← pure_eq_ok.mp h, map_of_mapM (fun line v hv => (hline line v hv).2) hread, Reader.values,
        htext, List.reduceOption, List.filterMap_map]
      rfl
  · rintro ⟨⟨text, htext, hrefusal⟩, hvalues⟩
    have hread : (nonBlankLines text).mapM r.readLine =
        .ok ((nonBlankLines text).map (Json.loads r.floats)) :=
      mapM_eq_map fun line hmem => by rw [Reader.readLine, hrefusal line hmem]; rfl
    refine ⟨text, readText_eq_ok.mpr htext, bind_eq_ok.mpr ⟨_, hread, ?_⟩⟩
    rw [pure_eq_ok, hvalues, Reader.values, htext, List.reduceOption, List.filterMap_map]
    rfl

theorem asEvent_eq_ok {v : Json} {e : RecordEvent} : asEvent v = .ok e ↔ v = .obj e := by
  cases v with
  | obj d => exact ⟨fun h => congrArg _ (Except.ok.inj h), fun h => congrArg _ (Json.obj.inj h)⟩
  | _ => exact ⟨nofun, nofun⟩

/-- The objects among values that are all objects. -/
theorem mapM_asEvent {values : List Json} {events : List RecordEvent}
    (h : values.mapM asEvent = .ok events) :
    events = values.filterMap fun
      | .obj e => some e
      | _ => none := by
  induction values generalizing events with
  | nil => exact (pure_eq_ok.mp h).symm
  | cons v values ih =>
    rw [List.mapM_cons] at h
    obtain ⟨e, he, h⟩ := bind_eq_ok.mp h
    obtain ⟨rest, hrest, h⟩ := bind_eq_ok.mp h
    rw [← pure_eq_ok.mp h, asEvent_eq_ok.mp he, ih hrest]
    rfl

theorem flatten_readLogs {values : List (List Json)} (h : d.sortedLogs.mapM r.readLog = .ok values) :
    values.flatten = d.sortedLogs.flatMap fun log => r.values log.2 := by
  rw [map_of_mapM (fun file l hl => (readLog_eq_ok.mp hl).2) h, List.flatMap_def]

/-- What `_read_events` returns are the events in their order. -/
theorem readEvents_eq {events : List RecordEvent} (h : readEvents r d = .ok events) :
    events = (d.objects r).insertionSort fun a b => recordKey a ≤ recordKey b := by
  obtain ⟨values, hvalues, h⟩ := bind_eq_ok.mp h
  obtain ⟨objects, hobjects, h⟩ := bind_eq_ok.mp h
  rw [sortByKey_eq_ok h, mapM_asEvent hobjects, flatten_readLogs hvalues]
  rfl

/-- **`_read_events` returns exactly for readable logs**. -/
theorem exists_readEvents_iff : (∃ events, readEvents r d = .ok events) ↔ d.Readable r := by
  constructor
  · rintro ⟨sorted, h⟩
    obtain ⟨values, hvalues, h⟩ := bind_eq_ok.mp h
    obtain ⟨events, hevents, h⟩ := bind_eq_ok.mp h
    rw [flatten_readLogs hvalues] at hevents
    refine ⟨fun log hlog => ?_, fun log hlog v hv => ?_, ?_⟩
    · obtain ⟨l, -, hl⟩ := mapM_ok_of_mem hvalues log hlog
      exact (readLog_eq_ok.mp hl).1
    · obtain ⟨e, -, he⟩ := mapM_ok_of_mem hevents v (List.mem_flatMap.mpr ⟨log, hlog, hv⟩)
      exact ⟨e, asEvent_eq_ok.mp he⟩
    · rw [mapM_asEvent hevents] at h
      unfold sortByKey at h
      split at h
      · assumption
      · cases h
  · rintro ⟨hdecoded, hobjects, hordered⟩
    obtain ⟨values, hvalues⟩ := exists_mapM_ok (f := r.readLog) fun log hlog =>
      ⟨_, readLog_eq_ok.mpr ⟨hdecoded log hlog, rfl⟩⟩
    obtain ⟨events, hevents⟩ : ∃ events, values.flatten.mapM asEvent = .ok events := by
      refine exists_mapM_ok fun v hv => ?_
      rw [flatten_readLogs hvalues] at hv
      obtain ⟨log, hlog, hv⟩ := List.mem_flatMap.mp hv
      obtain ⟨e, rfl⟩ := hobjects log hlog v hv
      exact ⟨e, rfl⟩
    have hobject : events = d.objects r := by
      rw [mapM_asEvent hevents, flatten_readLogs hvalues, RecordDir.objects]
    have hsorted : ∃ sorted, sortByKey recordKey events = .ok sorted := by
      rw [hobject, sortByKey, if_pos hordered]
      exact ⟨_, rfl⟩
    obtain ⟨sorted, hsorted⟩ := hsorted
    exact ⟨sorted, bind_eq_ok.mpr ⟨values, hvalues, bind_eq_ok.mpr ⟨events, hevents, hsorted⟩⟩⟩

section

variable {α : Type} {fold : String → Dict → List RecordEvent → Except PyError α}
  {tree : RecordTree}

/-- A record is folded unless its core is read and its logs are not. -/
theorem exists_foldRecord_iff {redirects : ℕ} {recordId : String} :
    (∃ record, foldRecord r fold tree redirects recordId = .ok record) ↔
      (loadCore r (tree.recDir recordId) ≠ none → (tree.recDir recordId).Readable r) := by
  unfold foldRecord
  cases hcore : loadCore r (tree.recDir recordId) with
  | none =>
    refine ⟨fun _ h => absurd rfl h, fun _ => ?_⟩
    cases redirects with
    | zero => exact ⟨none, rfl⟩
    | succ redirects =>
      cases redirectTarget r (tree.recDir recordId) with
      | none => exact ⟨none, rfl⟩
      | some target =>
        dsimp only
        split
        · exact ⟨none, rfl⟩
        · exact ⟨_, rfl⟩
  | some core =>
    rw [← exists_readEvents_iff]
    constructor
    · rintro ⟨record, h⟩ -
      obtain ⟨events, hevents, -⟩ := bind_eq_ok.mp h
      exact ⟨events, hevents⟩
    · intro h
      obtain ⟨events, hevents⟩ := h nofun
      cases core with
      | obj core => exact ⟨_, bind_eq_ok.mpr ⟨events, hevents, rfl⟩⟩
      | _ => exact ⟨none, bind_eq_ok.mpr ⟨events, hevents, rfl⟩⟩

/-! ### All records -/

/-- `_load_records` returns when each record is folded. -/
theorem exists_loadRecords_iff : (∃ records, loadRecords r fold tree = .ok records) ↔
    ∀ name ∈ tree.recordNames, loadCore r (tree.recDir name) ≠ none →
      (tree.recDir name).Readable r := by
  constructor
  · rintro ⟨records, h⟩ name hname
    obtain ⟨folded, hfolded, -⟩ := bind_eq_ok.mp h
    obtain ⟨record, -, hrecord⟩ := mapM_ok_of_mem hfolded name hname
    exact exists_foldRecord_iff.mp ⟨record, hrecord⟩
  · intro h
    obtain ⟨folded, hfolded⟩ := exists_mapM_ok (f := foldRecord r fold tree r.redirects)
      fun name hname => exists_foldRecord_iff.mpr (h name hname)
    exact ⟨_, bind_eq_ok.mpr ⟨folded, hfolded, rfl⟩⟩

/-- The tree without some of its record directories. -/
def RecordTree.without (tree : RecordTree) (gone : String → Bool) : RecordTree where
  names := tree.names.filter fun name => !gone name
  recDir path := if gone path then {} else tree.recDir path

variable {gone : String → Bool}

theorem foldRecord_of_missing {redirects : ℕ} {recordId : String}
    (h : tree.recDir recordId = {}) : foldRecord r fold tree redirects recordId = .ok none := by
  unfold foldRecord
  rw [h]
  cases redirects <;> rfl

/-- **A record is folded from its own files**: without other records it is the same, or a redirect
that led to one of them. -/
theorem foldRecord_without (gone : String → Bool) (redirects : ℕ) (recordId : String) :
    foldRecord r fold (tree.without gone) redirects recordId = .ok none ∨
      foldRecord r fold (tree.without gone) redirects recordId =
        foldRecord r fold tree redirects recordId := by
  by_cases hgone : gone recordId = true
  · exact .inl (foldRecord_of_missing (if_pos hgone))
  have hdir : (tree.without gone).recDir recordId = tree.recDir recordId := if_neg hgone
  induction redirects generalizing recordId with
  | zero =>
    unfold foldRecord
    rw [hdir]
    cases loadCore r (tree.recDir recordId) <;> exact .inr rfl
  | succ redirects ih =>
    unfold foldRecord
    rw [hdir]
    cases loadCore r (tree.recDir recordId) with
    | some core => exact .inr rfl
    | none =>
      cases redirectTarget r (tree.recDir recordId) with
      | none => exact .inr rfl
      | some target =>
        dsimp only
        split
        · exact .inr rfl
        · by_cases htarget : gone target = true
          · rw [foldRecord_of_missing (if_pos htarget)]
            exact .inl rfl
          · rcases ih target htarget (if_neg htarget) with h | h
            · rw [h]
              exact .inl rfl
            · rw [h]
              exact .inr rfl

theorem recordNames_without : (tree.without gone).recordNames =
    tree.recordNames.filter fun name => !gone name := by
  have hsort : (tree.names.filter fun name => !gone name).insertionSort (· ≤ ·) =
      (tree.names.insertionSort (· ≤ ·)).filter fun name => !gone name := by
    refine List.Perm.eq_of_pairwise' (List.pairwise_insertionSort _ _)
      ((List.pairwise_insertionSort _ _).filter _) ?_
    exact (List.perm_insertionSort _ _).trans ((List.perm_insertionSort _ _).symm.filter _)
  have hcore : ∀ name, (((tree.without gone).recDir name).core.isSome && !gone name) =
      ((tree.recDir name).core.isSome && !gone name) := by
    intro name
    by_cases hgone : gone name = true
    · rw [hgone, Bool.not_true, Bool.and_false, Bool.and_false]
    · rw [show (tree.without gone).recDir name = tree.recDir name from if_neg hgone]
  show (((tree.names.filter fun name => !gone name).insertionSort (· ≤ ·)).filter _) = _
  rw [hsort, RecordTree.recordNames, List.filter_filter, List.filter_filter]
  refine List.filter_congr fun name _ => ?_
  rw [hcore, Bool.and_comm]

/-- **The records that are left are listed as before**. -/
theorem loadRecords_without (gone : String → Bool) {records : List α}
    (h : loadRecords r fold tree = .ok records) :
    ∃ rest, loadRecords r fold (tree.without gone) = .ok rest ∧ rest.Sublist records := by
  obtain ⟨folded, hfolded, h⟩ := bind_eq_ok.mp h
  obtain ⟨rest, hrest, hsub⟩ := sublist_mapM_filter (fun name => !gone name) hfolded
    fun name _ => foldRecord_without gone r.redirects name
  rw [← recordNames_without] at hrest
  refine ⟨rest.reduceOption, bind_eq_ok.mpr ⟨rest, hrest, rfl⟩, ?_⟩
  rw [← pure_eq_ok.mp h]
  exact hsub

/-- A list of records returns, and the records that are left without some of the directories are
listed as before. -/
def Tolerates (list : RecordTree → Except PyError (List α)) (tree : RecordTree) : Prop :=
  ∃ records, list tree = .ok records ∧
    ∀ gone, ∃ rest, list (tree.without gone) = .ok rest ∧ rest.Sublist records

/-- Each record whose core is read has readable logs. -/
def RecordTree.Readable (r : Reader) (tree : RecordTree) : Prop :=
  ∀ name ∈ tree.recordNames, loadCore r (tree.recDir name) ≠ none → (tree.recDir name).Readable r

theorem sublist_filterBy {value : Option String} {test : α → String → Bool} {l m : List α}
    (h : l.Sublist m) : (filterBy value test l).Sublist (filterBy value test m) := by
  cases value with
  | none => exact h
  | some s =>
    unfold filterBy
    dsimp only
    split
    · exact h
    · exact h.filter _

theorem tolerates_iff {list : RecordTree → Except PyError (List α)} {view : List α → List α}
    (hlist : ∀ tree, list tree = (do pure (view (← loadRecords r fold tree))))
    (hview : ∀ l m : List α, l.Sublist m → (view l).Sublist (view m)) :
    Tolerates list tree ↔ tree.Readable r := by
  rw [RecordTree.Readable, ← @exists_loadRecords_iff r α fold tree]
  constructor
  · rintro ⟨records, h, -⟩
    rw [hlist] at h
    obtain ⟨loaded, hloaded, -⟩ := bind_eq_ok.mp h
    exact ⟨loaded, hloaded⟩
  · rintro ⟨loaded, hloaded⟩
    refine ⟨view loaded, ?_, fun gone => ?_⟩
    · rw [hlist]
      exact bind_eq_ok.mpr ⟨loaded, hloaded, rfl⟩
    · obtain ⟨rest, hrest, hsub⟩ := loadRecords_without gone hloaded
      refine ⟨view rest, ?_, hview _ _ hsub⟩
      rw [hlist]
      exact bind_eq_ok.mpr ⟨rest, hrest, rfl⟩

end

/-- **Damaged records hide no others exactly when the logs are readable**: each list returns, with
the records that are intact as they are without the damaged ones, if and only if every log of a
record with a core is a text whose JSON lines are objects in an order. -/
theorem lists_tolerate_iff (env : Env) (r : Reader) (disk : Disk) (files : VoteFiles)
    (status severity service : Option String) (tree : RecordTree) :
    (Tolerates (listIncidents env r status severity service) tree ↔ tree.Readable r) ∧
      (Tolerates (listProblems env r status) tree ↔ tree.Readable r) ∧
      (Tolerates (listChanges env r disk files status) tree ↔ tree.Readable r) := by
  refine ⟨?_, ?_, ?_⟩
  · refine tolerates_iff (fun tree => rfl) fun l m h => ?_
    exact sublist_filterBy (sublist_filterBy (sublist_filterBy h))
  · exact tolerates_iff (fun tree => rfl) fun l m h => sublist_filterBy h
  · exact tolerates_iff (fun tree => rfl) fun l m h => sublist_filterBy h

/-! ### A damaged log -/

/-- A reader that refuses nothing but what is not JSON. -/
def plainReader : Reader := { floats := zeroFloats, refusal := fun _ => none, redirects := 900 }

/-- The tree of these directories. -/
def treeOf (dirs : Assoc String RecordDir) : RecordTree where
  names := Assoc.keys dirs
  recDir path := (Assoc.get? dirs path).getD {}

/-- An incident with this log. -/
def incidentDir (id : String) (log : List Char) : RecordDir where
  core := some (encodeUtf8 ((Json.obj [("id", .str id)]).dumps zeroFloats .compact))
  logs := [("w.jsonl", encodeUtf8 log)]

/-- Two incidents; in the log of the second one a line holds a number. -/
def damagedTree : RecordTree :=
  treeOf [("inc-1", incidentDir "inc-1" []), ("inc-2", incidentDir "inc-2" ['7', '\n'])]

/-- The first incident is listed without the second one, and neither is listed beside it. -/
theorem damaged_log_hides_all :
    ((listIncidents plainEnv plainReader none none none
      (damagedTree.without (· == "inc-2"))).toOption.map fun l => l.map Incident.id) =
        some ["inc-1"] ∧
    (listIncidents plainEnv plainReader none none none damagedTree).toOption.isNone ∧
    ¬Tolerates (listIncidents plainEnv plainReader none none none) damagedTree := by
  have hlists : (((listIncidents plainEnv plainReader none none none
      (damagedTree.without (· == "inc-2"))).toOption.map fun l => l.map Incident.id),
      (listIncidents plainEnv plainReader none none none damagedTree).toOption.isNone) =
      (some ["inc-1"], true) := by decide +kernel
  obtain ⟨hrest, hnone⟩ := Prod.mk.inj hlists
  refine ⟨hrest, hnone, ?_⟩
  rintro ⟨records, h, -⟩
  rw [h] at hnone
  cases hnone

end SkCoord.Itil
