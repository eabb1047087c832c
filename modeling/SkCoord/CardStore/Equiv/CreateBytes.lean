import SkCoord.CardStore.CreateBytes
import SkCoord.CardStore.Equiv.CreateOnce
import SkCoord.CardStore.Equiv.FoldedGraph
import SkCoord.Python.JsonIndent

/-!
# A creation that is stopped while it writes

Each step of a creation leaves a store that `tearCore` describes (`store_of_stopsAt`): the core is
malformed until the last byte of its object is there.  `create_crashAtomic_iff`: the creation is
crash-atomic where it is stopped outside that window and the complete card folds.  Inside it the
card does not fold, nothing is listed and no later creation returns (`blocked_of_part`).
-/

namespace SkCoord

open Python Python.Effect

variable {env : CreationEnv} {core : CardCore} {text : CoreText core} {st : Store} {s : CreateState}

/-! ### The bytes of a core -/

namespace CoreText

theorem payload_eq (text : CoreText core) : text.payload = text.objectBytes ++ [10] :=
  encodeUtf8_append _ _

/-- What is written of an object, but not to its end, is no core. -/
theorem coreFile_part {n : ℕ} (hn : n < text.objectBytes.length) :
    text.coreFile (text.objectBytes.take n) = .malformed := by
  unfold coreFile
  cases hdecode : decodeUtf8 (text.objectBytes.take n) with
  | none => rfl
  | some q =>
    have hbytes := encodeUtf8_of_decodeUtf8 hdecode
    have hprefix : q <+: text.dump := by
      refine prefix_of_encodeUtf8 ?_
      rw [hbytes]
      exact List.take_prefix _ _
    have hne : q ≠ text.dump := by
      rintro rfl
      have hlength := congrArg List.length hbytes
      rw [List.length_take, objectBytes] at hlength
      rw [objectBytes] at hn
      omega
    have hloads : Json.loads text.floats q = none := by
      obtain ⟨r, hr⟩ := hprefix
      have hopens := text.opens
      have hcloses := text.closes
      cases q with
      | nil => rfl
      | cons c q =>
        rw [← hr] at hopens hcloses
        refine Json.loads_part (s := r) hopens ?_ (hr ▸ text.loads)
        -- the object ends with a brace, so what is not written of it does
        have hrne : r ≠ [] := by
          rintro rfl
          exact hne (by rw [← hr, List.append_nil])
        intro hblank
        unfold Json.skipBlanks at hblank
        rw [List.dropWhile_eq_nil_iff] at hblank
        rw [List.getLast?_append_of_ne_nil _ hrne] at hcloses
        exact absurd (hblank '}' (List.mem_of_getLast? hcloses)) (by decide)
    dsimp only
    rw [hloads]

/-- The object is the core, with and without the newline behind it. -/
theorem coreFile_whole {blanks : List Char} (hblanks : Json.skipBlanks blanks = []) :
    text.coreFile (encodeUtf8 (text.dump ++ blanks)) = .present core := by
  unfold coreFile
  rw [decodeUtf8_encodeUtf8]
  dsimp only
  rw [Json.loads_append_blanks text.opens hblanks text.loads]
  dsimp only
  rw [text.read_value]

/-- **What is read while the text is written.** -/
theorem coreFile_take (n : ℕ) :
    text.coreFile (text.payload.take n) =
      if text.objectBytes.length ≤ n then .present core else .malformed := by
  rw [payload_eq]
  split
  · rename_i hle
    rcases Nat.lt_or_ge text.objectBytes.length n with hlt | hge
    · have htake : (text.objectBytes ++ [10]).take n = encodeUtf8 (text.dump ++ ['\n']) := by
        rw [List.take_of_length_le (by rw [List.length_append]; exact hlt), ← payload_eq]
        rfl
      rw [htake]
      exact coreFile_whole rfl
    · have htake : (text.objectBytes ++ [10]).take n = encodeUtf8 (text.dump ++ []) := by
        rw [Nat.le_antisymm hge hle, List.take_left, List.append_nil]
        rfl
      rw [htake]
      exact coreFile_whole rfl
  · rename_i hlt
    rw [List.take_append_of_le_length (by omega)]
    exact coreFile_part (by omega)

end CoreText

/-! ### The store on the way -/

theorem Store.putCore_putCore (st : Store) (cardId : String) (f g : CoreFile) :
    (st.putCore cardId f).putCore cardId g = st.putCore cardId g := by
  unfold Store.putCore Store.dir
  simp [Assoc.set_set]

theorem Store.dir_putCore (st : Store) (cardId : String) (f : CoreFile) :
    ((st.putCore cardId f).dir cardId).core = f := by
  unfold Store.putCore Store.dir
  simp

/-- The store that a creation leaves in a phase. -/
def CreatePhase.leaves (text : CoreText core) (st : Store) : CreatePhase → Store
  | checked => st
  | writing offset => st.tearCore core (decide (text.objectBytes.length ≤ offset))
  | written => st.publishCore core

/-- The tear of an absent core. -/
theorem Store.tearCore_eq (habsent : (st.dir core.id).core = .absent) (full : Bool) :
    st.tearCore core full =
      st.putCore core.id (if full then .present core else .malformed) := by
  unfold tearCore
  rw [habsent]
  cases full <;> rfl

theorem Store.publishCore_eq (habsent : (st.dir core.id).core = .absent) :
    st.publishCore core = st.setCore core := by
  unfold publishCore
  rw [habsent]
  rfl

/-- **Every step of a creation** leaves the store of its phase. -/
theorem store_of_stopsAt (habsent : (st.dir core.id).core = .absent) (h : StopsAt text st s) :
    s.store = s.phase.leaves text st ∧
      ∀ offset, s.phase = .writing offset → offset ≤ text.payload.length := by
  have hput : ∀ n : ℕ, st.putCore core.id (text.coreFile (text.payload.take n)) =
      (CreatePhase.writing n).leaves text st := by
    intro n
    rw [CoreText.coreFile_take, CreatePhase.leaves, Store.tearCore_eq habsent]
    simp only [decide_eq_true_eq]
  induction h with
  | refl => exact ⟨rfl, nofun⟩
  | tail _ hstep ih =>
    cases hstep with
    | openFile _ =>
      obtain ⟨hstore, -⟩ := ih
      refine ⟨?_, fun offset h => ?_⟩
      · dsimp only at hstore ⊢
        rw [← hput 0, List.take_zero, hstore]
        rfl
      · cases h
        exact Nat.zero_le _
    | write hn hle =>
      obtain ⟨hstore, -⟩ := ih
      refine ⟨?_, fun offset h => ?_⟩
      · dsimp only at hstore ⊢
        rw [← hput, hstore, CreatePhase.leaves, Store.tearCore_eq habsent,
          Store.putCore_putCore]
      · cases h
        exact hle
    | close =>
      obtain ⟨hstore, -⟩ := ih
      refine ⟨?_, nofun⟩
      have hlength : text.objectBytes.length ≤ text.payload.length := by
        rw [CoreText.payload_eq, List.length_append]
        omega
      dsimp only at hstore ⊢
      rw [hstore, CreatePhase.leaves, CreatePhase.leaves, Store.publishCore_eq habsent,
        Store.tearCore_eq habsent, decide_eq_true hlength]
      rfl

/-! ### What reads the store -/

namespace Store

/-- The cards are listed when every directory has a name and every core that is there folds. -/
theorem listCards_isOk_iff {st : Store} {env : Env} {includeArchived : Bool} :
    (st.listCards env includeArchived).isOk ↔
      ∀ name ∈ Assoc.keys st.cards, (validateCardLockIdentifier name).isOk ∧
        ((st.dir name).core.exists = true → (st.fold env name).isOk) := by
  have hnames : ∀ names : List String, (namesWithCore st names).isOk ↔
      ∀ name ∈ names, (validateCardLockIdentifier name).isOk := by
    intro names
    induction names with
    | nil => exact ⟨fun _ name hname => absurd hname List.not_mem_nil, fun _ => rfl⟩
    | cons name names ih =>
      rw [namesWithCore, List.forall_mem_cons, ← ih]
      cases validateCardLockIdentifier name with
      | error e => exact ⟨nofun, fun h => h.1⟩
      | ok r =>
        cases namesWithCore st names with
        | error e => exact ⟨nofun, fun h => h.2⟩
        | ok rest => exact ⟨fun _ => ⟨rfl, rfl⟩, fun _ => rfl⟩
  have hids := hnames ((Assoc.keys st.cards).insertionSort fun a b => a ≤ b)
  simp only [List.mem_insertionSort] at hids
  unfold listCards listCardIds
  cases hlist : namesWithCore st ((Assoc.keys st.cards).insertionSort fun a b => a ≤ b) with
  | error e =>
    rw [hlist] at hids
    exact ⟨nofun, fun h => hids.mpr fun name hname => (h name hname).1⟩
  | ok ids =>
    rw [hlist] at hids
    have hfolds : (ids.mapM (st.fold env)).isOk ↔ ∀ name ∈ Assoc.keys st.cards,
        (st.dir name).core.exists = true → (st.fold env name).isOk := by
      rw [mapM_isOk, namesWithCore_eq hlist]
      simp only [List.mem_filter, List.mem_insertionSort, and_imp]
    rw [ok_bind]
    cases hfold : ids.mapM (st.fold env) with
    | error e =>
      rw [hfold] at hfolds
      exact ⟨nofun, fun h => hfolds.mpr fun name hname => (h name hname).2⟩
    | ok cards =>
      rw [hfold] at hfolds
      exact ⟨fun _ name hname => ⟨hids.mp rfl name hname, hfolds.mp rfl name hname⟩, fun _ => rfl⟩

/-- The cards are listed with one more that folds. -/
theorem listCards_setCore {st : Store} {env : Env} {includeArchived : Bool}
    (hvalid : validateCardLockIdentifier core.id = .ok core.id)
    (hfold : ((st.setCore core).fold env core.id).isOk)
    (h : (st.listCards env includeArchived).isOk) :
    ((st.setCore core).listCards env includeArchived).isOk := by
  rw [listCards_isOk_iff] at h ⊢
  intro name hname
  by_cases hid : name = core.id
  · rw [hid, hvalid]
    exact ⟨rfl, fun _ => hfold⟩
  · have hold : name ∈ Assoc.keys st.cards :=
      (Assoc.mem_keys_set.mp hname).resolve_left hid
    rw [dir_setCore_of_ne st hid, fold_congr (dir_setCore_of_ne st hid) rfl]
    exact h name hold

end Store

/-- A core is admitted by the guard as before once it is there: what a replacement names are cards
that were there already. -/
theorem creationGuard_setCore (habsent : (st.dir core.id).core = .absent)
    (h : env.creationGuard st core = .ok ()) :
    env.creationGuard (st.setCore core) core = .ok () := by
  unfold CreationEnv.creationGuard at h ⊢
  split at h
  · rename_i hplain
    rw [if_pos hplain]
    rfl
  · rename_i hplain
    rw [if_neg hplain]
    split at h
    · rename_i source old hsource hold
      split at h
      · rename_i hhex
        have hnamed : (Assoc.get? core.metaData "review_predecessor").isSome := by
          cases hget : Assoc.get? core.metaData "review_predecessor" with
          | some value => rfl
          | none =>
            rw [Dict.getD, hget, Option.getD_none] at hold
            cases hold
            simp [isHex] at hhex
        obtain ⟨hsourceCore, holdCore⟩ :=
          env.cores_of_authorizedPredecessor _ _ _ _ hnamed h
        have hother : ∀ {other : String}, (st.dir other).core ≠ .absent → other ≠ core.id := by
          rintro other hcore rfl
          exact hcore habsent
        rw [if_pos hhex, Store.dir_setCore_of_ne st (hother hsourceCore),
          Store.dir_setCore_of_ne st (hother holdCore)]
        exact h
      · cases h
    · cases h

/-- A creation of an absent core that passes its checks stores it. -/
theorem create_of_absent {c : CreationState} (hadm : Admissible env core c.store) :
    ∃ t, (create env .ok .ok core).run c = (.ok core.id, t) ∧
      (t.store.dir core.id).core = .present core := by
  have hself := core_publishCore_self hadm.absent
  have hanchor : (ensureCardLockAnchor .ok core.id).run
      { c with store := c.store.publishCore core } =
        (.ok (), { c with store := c.store.publishCore core }) := by
    unfold ensureCardLockAnchor
    rw [run_get_bind, run_lift_bind, Store.loadCore_of_present hadm.valid hself]
    dsimp only
    rw [if_pos rfl]
    rfl
  refine ⟨{ c with store := c.store.publishCore core }, ?_, hself⟩
  unfold create
  rw [run_get_bind, run_lift_bind, hadm.creationGuard, run_lift_bind, hadm.valid, run_lift_bind,
    Store.loadCore_of_absent hadm.valid hadm.absent]
  dsimp only [Option.isSome_none]
  rw [if_neg Bool.false_ne_true, run_lift_bind, hadm.governCreate]
  exact (run_bind_of_ok rfl).trans (run_bind_pure hanchor core.id)

/-- A creation of a core that is there returns. -/
theorem create_of_present {c : CreationState} (hguard : env.creationGuard c.store core = .ok ())
    (hvalid : validateCardLockIdentifier core.id = .ok core.id)
    (hcore : (c.store.dir core.id).core = .present core) :
    (create env .ok .ok core).run c = (.ok core.id, c) := by
  unfold create
  rw [run_get_bind, run_lift_bind, hguard, run_lift_bind, hvalid, run_lift_bind,
    Store.loadCore_of_present hvalid hcore]
  rfl

/-! ### Creations that are stopped -/

/-- **A part of a core** stops its card, the listing and every later creation of the core. -/
theorem blocked_of_part (hvalid : validateCardLockIdentifier core.id = .ok core.id)
    (hcore : (st.dir core.id).core = .malformed) :
    (∀ env : Env, ¬(st.fold env core.id).isOk) ∧
      (∀ (env : Env) (includeArchived : Bool), ¬(st.listCards env includeArchived).isOk) ∧
      ∀ (env : CreationEnv) (f anchor : Fault) (c : CreationState), c.store = st →
        ∃ e, (create env f anchor core).run c = (.error e, c) := by
  have hload : st.loadCore core.id =
      .error (.value ("CardStore core for " ++ core.id ++ " is malformed")) := by
    unfold Store.loadCore
    rw [hvalid, hcore]
    rfl
  have hfold : ∀ env : Env, ¬(st.fold env core.id).isOk := by
    intro env
    unfold Store.fold
    rw [hload]
    exact Bool.false_ne_true
  refine ⟨hfold, fun env includeArchived h => ?_, fun env f anchor c hc => ?_⟩
  · have hkey : core.id ∈ Assoc.keys st.cards := by
      by_contra hno
      unfold Store.dir at hcore
      rw [(Assoc.get?_eq_none_iff _ _).mpr hno] at hcore
      cases hcore
    exact hfold env ((Store.listCards_isOk_iff.mp h core.id hkey).2 (by rw [hcore]; rfl))
  · unfold create
    rw [run_get_bind, run_lift_bind, hc]
    cases env.creationGuard st core with
    | error e => exact ⟨e, rfl⟩
    | ok _ =>
      dsimp only
      rw [run_lift_bind, hvalid]
      dsimp only
      rw [run_lift_bind, hload]
      exact ⟨_, rfl⟩

/-- A store that a creation has not touched. -/
theorem crashAtomic_self (hadm : Admissible env core st) : CrashAtomic env core st st where
  visible := .inl (Store.loadCore_of_absent hadm.valid hadm.absent)
  folds := by
    refine ⟨none, ?_⟩
    unfold Store.fold
    rw [Store.loadCore_of_absent hadm.valid hadm.absent]
    rfl
  lists _ h := h
  governs _ _ := .inl rfl
  retries _ hs := create_of_absent (hs ▸ hadm)

/-- A store with the complete core. -/
theorem crashAtomic_setCore (hadm : Admissible env core st)
    (hfold : ∃ card, (st.setCore core).fold env.env core.id = .ok card) :
    CrashAtomic env core st (st.setCore core) where
  visible := by
    right
    exact Store.loadCore_of_present hadm.valid (by rw [Store.dir_setCore_self])
  folds := hfold
  lists _ h := Store.listCards_setCore hadm.valid (isOk_iff.mpr hfold) h
  governs _ _ := .inr rfl
  retries c hc := by
    have hcore : (c.store.dir core.id).core = .present core := by
      rw [hc, Store.dir_setCore_self]
    refine ⟨c, create_of_present ?_ hadm.valid hcore, hcore⟩
    rw [hc]
    exact creationGuard_setCore hadm.absent hadm.creationGuard

theorem exists_foldInit_iff (cardId : String) : (∃ s, foldInit cardId core = .ok s) ↔
    (core.initialOwner.isSome → ∃ r, core.initialClaimRevision = some r ∧ r ≠ "") := by
  unfold foldInit
  cases core.initialOwner with
  | none => exact ⟨fun _ => nofun, fun _ => ⟨_, rfl⟩⟩
  | some owner =>
    cases core.initialClaimRevision with
    | none => exact ⟨fun ⟨_, h⟩ => (nomatch h), fun h => (nomatch h rfl)⟩
    | some r =>
      dsimp only
      split
      · rename_i hempty
        refine ⟨fun ⟨_, h⟩ => (nomatch h), fun h => ?_⟩
        obtain ⟨r', heq, hne⟩ := h rfl
        cases heq
        exact absurd hempty hne
      · rename_i hne
        exact ⟨fun _ _ => ⟨r, rfl, hne⟩, fun _ => ⟨_, rfl⟩⟩

/-- The complete core of a new card folds, unless it has an owner and no claim revision. -/
theorem fold_setCore_iff {env : Env} (hvalid : validateCardLockIdentifier core.id = .ok core.id)
    (hlogs : (st.dir core.id).logs = []) (hlegacy : st.legacyEvents core.id = []) :
    (∃ card, (st.setCore core).fold env core.id = .ok card) ↔
      (core.initialOwner.isSome → ∃ r, core.initialClaimRevision = some r ∧ r ≠ "") := by
  have hevents : (st.setCore core).mergedEvents env core.id = .ok [] := by
    have hlegacy' : (st.setCore core).legacyEvents core.id = [] := hlegacy
    unfold Store.mergedEvents Store.readEvents
    rw [hlegacy', Store.dir_setCore_self, hvalid]
    unfold Store.sortedLogs
    dsimp only
    rw [hlogs]
    rfl
  rw [← exists_foldInit_iff core.id, Store.fold,
    Store.loadCore_of_present hvalid (by rw [Store.dir_setCore_self]), ok_bind]
  constructor
  · rintro ⟨card, h⟩
    obtain ⟨s, hs, -⟩ := bind_eq_ok.mp h
    exact ⟨s, hs⟩
  · rintro ⟨s, hs⟩
    exact ⟨some s.card, bind_eq_ok.mpr ⟨s, hs, bind_eq_ok.mpr ⟨[], hevents, rfl⟩⟩⟩

/-- **A creation is crash-atomic** exactly when it is not stopped between the opening of its file
and the last byte of its object, and the complete card folds where there is one. -/
theorem create_crashAtomic_iff (hadm : Admissible env core st) (h : StopsAt text st s) :
    CrashAtomic env core st s.store ↔
      (∀ offset, s.phase = .writing offset → text.objectBytes.length ≤ offset) ∧
        (s.phase = .checked ∨ ∃ card, (st.setCore core).fold env.env core.id = .ok card) := by
  obtain ⟨hstore, -⟩ := store_of_stopsAt hadm.absent h
  rw [hstore]
  have hwhole : CrashAtomic env core st (st.setCore core) ↔
      ∃ card, (st.setCore core).fold env.env core.id = .ok card :=
    ⟨fun hatomic => hatomic.folds, crashAtomic_setCore hadm⟩
  cases hphase : s.phase with
  | checked => exact ⟨fun _ => ⟨nofun, .inl rfl⟩, fun _ => crashAtomic_self hadm⟩
  | written =>
    rw [CreatePhase.leaves, Store.publishCore_eq hadm.absent, hwhole]
    exact ⟨fun hfold => ⟨nofun, .inr hfold⟩, fun hfold => hfold.2.resolve_left nofun⟩
  | writing offset =>
    rw [CreatePhase.leaves, Store.tearCore_eq hadm.absent]
    by_cases hle : text.objectBytes.length ≤ offset
    · rw [decide_eq_true hle, if_pos rfl]
      refine hwhole.trans ⟨fun hfold => ⟨fun _ hoffset => ?_, .inr hfold⟩, fun hfold =>
        hfold.2.resolve_left nofun⟩
      cases hoffset
      exact hle
    · rw [decide_eq_false hle, if_neg Bool.false_ne_true]
      refine ⟨fun hatomic => ?_, fun hfold => absurd (hfold.1 offset rfl) hle⟩
      have hblocked := blocked_of_part hadm.valid (Store.dir_putCore st core.id .malformed)
      exact absurd (isOk_iff.mpr hatomic.folds) (hblocked.1 env.env)

/-- The object of `titledCore`. -/
def titledValue : Dict :=
  [("id", .str "c1"), ("kind", .str "task"), ("title", .str "t"), ("description", .str ""),
    ("created_by", .str ""), ("created_at", .str "2026-01-01T00:00:00+00:00"),
    ("acceptance_criteria", .arr []), ("dependencies", .arr []),
    ("initial_priority", .str "medium"), ("initial_swimlane", .str "feature"),
    ("initial_labels", .arr []), ("initial_owner", .null), ("initial_claim_revision", .null),
    ("meta", .obj []), ("exit_gates", .arr []), ("non_goals", .arr []), ("spec_version", .null)]

/-- The core of an object, with what the fold takes for a field that is not there. -/
def coreOfObject (d : Dict) : CardCore where
  id := text "id" ""
  kind := text "kind" "task"
  title := text "title" ""
  description := text "description" ""
  createdBy := text "created_by" ""
  createdAt := text "created_at" ""
  acceptanceCriteria := texts "acceptance_criteria"
  dependencies := texts "dependencies"
  initialPriority := text "initial_priority" "medium"
  initialSwimlane := text "initial_swimlane" "feature"
  initialLabels := texts "initial_labels"
  initialOwner := (optionalText (d.get "initial_owner")).toOption.join
  initialClaimRevision := (optionalText (d.get "initial_claim_revision")).toOption.join
  metaData := object (d.get "meta")
  exitGates := (items (d.get "exit_gates")).map object
  nonGoals := texts "non_goals"
  specVersion := match d.get "spec_version" with
    | .int n => some n
    | _ => none
where
  text (key default : String) : String := (textField (d.getD key (.str default))).toOption.getD ""
  items : Json → List Json
    | .arr l => l
    | _ => []
  texts (key : String) : List String :=
    (items (d.get key)).filterMap fun v => (textField v).toOption
  object : Json → Dict
    | .obj m => m
    | _ => []

/-- The text of `titledCore`. -/
def titledText : CoreText titledCore where
  floats := zeroFloats
  dump := (Json.obj titledValue).pretty zeroFloats 0
  value := titledValue
  read := coreOfObject
  opens := by decide +kernel
  closes := by decide +kernel
  loads := by
    have hloads := @Json.loads_pretty_append zeroFloats (.obj titledValue) [] nofun rfl
    rw [List.append_nil] at hloads
    exact hloads
  read_value := rfl

theorem admitted_titled : Admissible titledEnv titledCore {} :=
  ⟨rfl, rfl, rfl, rfl⟩

theorem length_payload_pos {core : CardCore} {text : CoreText core} :
    0 < text.payload.length := by
  rw [CoreText.payload_eq, List.length_append]
  exact Nat.succ_pos _

/-- A creation that writes its file to the end is crash-atomic: the complete card is visible and
folds. -/
theorem create_crashAtomic_iff_titled :
    CrashAtomic titledEnv titledCore {}
      (({} : Store).putCore "c1" (titledText.coreFile titledText.payload)) := by
  have hopen := @WriteStep.openFile _ titledText {} rfl
  have hwrite := @WriteStep.write _ titledText
    (({} : Store).putCore "c1" (titledText.coreFile [])) 0 titledText.payload.length
    length_payload_pos (Nat.zero_add _).le
  rw [Nat.zero_add, List.take_length] at hwrite
  have hstop : StopsAt titledText {} ⟨.written, _⟩ :=
    ((Relation.ReflTransGen.single hopen).tail hwrite).tail .close
  rw [← Store.putCore_putCore {} "c1" (titledText.coreFile [])]
  exact (create_crashAtomic_iff admitted_titled hstop).mpr ⟨nofun, .inr ⟨_, rfl⟩⟩

/-- A creation that is stopped behind its first byte: the file is there and holds no object, so the
card neither folds nor can be created again. -/
theorem one_byte_blocks :
    ∃ s, StopsAt titledText {} s ∧ ¬CrashAtomic titledEnv titledCore {} s.store := by
  have hopen := @WriteStep.openFile _ titledText {} rfl
  have hwrite := @WriteStep.write _ titledText
    (({} : Store).putCore "c1" (titledText.coreFile [])) 0 1 Nat.one_pos length_payload_pos
  refine ⟨_, (Relation.ReflTransGen.single hopen).tail hwrite, fun hatomic => ?_⟩
  have hpart : titledText.coreFile (titledText.payload.take (0 + 1)) = .malformed := by
    have hdump : titledText.dump.take 2 = ['{', '\n'] := by decide +kernel
    have hbytes : titledText.objectBytes =
        encodeUtf8 ['{', '\n'] ++ encodeUtf8 (titledText.dump.drop 2) := by
      rw [CoreText.objectBytes, ← hdump, ← encodeUtf8_append, List.take_append_drop]
    have hlength : (encodeUtf8 ['{', '\n']).length = 2 := by decide +kernel
    rw [CoreText.coreFile_take, if_neg]
    rw [hbytes, List.length_append, hlength]
    omega
  have hcore : (((({} : Store).putCore "c1" (titledText.coreFile [])).putCore "c1"
      (titledText.coreFile (titledText.payload.take (0 + 1)))).dir "c1").core = .malformed := by
    rw [Store.dir_putCore, hpart]
  exact (@blocked_of_part titledCore _ rfl hcore).1 titledEnv.env
    (isOk_iff.mpr hatomic.folds)

end SkCoord
