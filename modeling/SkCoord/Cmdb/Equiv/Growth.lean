import SkCoord.Cmdb.Equiv.DryRun
import SkCoord.Cmdb.Equiv.Edges

/-!
# What a reconciliation writes

A call of `reconcile` publishes cores and appends events to the logs of one writer; nothing else in
the store changes.  `GrownStore` says so of two stores, with the cores that may be published, the
items whose logs are written and the relationships that the events may add, and
`grows_reconcileIdentified` of a call.  An item that is found as it is stored is not written
(`Appends`).
-/

namespace SkCoord.Cmdb

open Python Python.Effect

/-! ### Events of the manager -/

section

variable {env : Env} {F : FloatText} {seq : ℕ} {agent action ts : String} {payload : Dict}

theorem stamped_newEvent : Stamped (newEvent env seq agent action ts payload) := by
  have hset : ∀ {e : Dict} (k : String) (v : Json), Stamped e → Stamped (Assoc.set e k v) := by
    rintro e k v ⟨w, d, rfl⟩
    rw [Assoc.set]
    split
    · rename_i hk
      exact ⟨v, d, by rw [hk]⟩
    · exact ⟨w, _, rfl⟩
  suffices h : ∀ (l e : Dict), Stamped e → Stamped (l.foldl (fun e p => Assoc.set e p.1 p.2) e) from
    h _ _ ⟨_, _, rfl⟩
  intro l
  induction l with
  | nil => exact fun e he => he
  | cons p l ih => exact fun e he => ih _ (hset p.1 p.2 he)

theorem get?_rereadEvent {e : Dict} (he : (Assoc.keys e).Nodup) (k : String) :
    Assoc.get? (rereadEvent F e) k = (Assoc.get? e k).map (Json.reread F) := by
  have hkeys : Assoc.keys (Json.rereadFields F e) = Assoc.keys e := by
    rw [Json.rereadFields_eq_map, Assoc.keys, List.map_map]
    rfl
  rw [rereadEvent, Json.ofPairs_of_nodup (hkeys ▸ he), Json.rereadFields_eq_map, Assoc.get?_map]

/-- **A field of a written event** is that of the payload, or that of every event. -/
theorem get?_newEvent (hpayload : (Assoc.keys payload).Nodup) (k : String) :
    Assoc.get? (rereadEvent F (newEvent env seq agent action ts payload)) k =
      ((Assoc.get? payload k).or (Assoc.get? (eventFields env seq agent action ts) k)).map
        (Json.reread F) := by
  have hfields : (Assoc.keys (eventFields env seq agent action ts)).Nodup := by
    show ["schema_version", "ts", "writer", "node", "seq", "action"].Nodup
    decide
  have hevent : (Assoc.keys (newEvent env seq agent action ts payload)).Nodup :=
    Assoc.nodup_keys_foldl_set payload hfields
  rw [get?_rereadEvent hevent, newEvent, Assoc.get?_update k payload _ hpayload]

theorem action_newEvent (hpayload : (Assoc.keys payload).Nodup)
    (haction : "action" ∉ Assoc.keys payload) :
    (rereadEvent F (newEvent env seq agent action ts payload)).get "action" = .str action := by
  rw [Dict.get, get?_newEvent hpayload, (Assoc.get?_eq_none_iff _ _).mpr haction]
  rfl

/-- An event whose action is another one relates nothing. -/
theorem relates_newEvent (hpayload : (Assoc.keys payload).Nodup)
    (haction : "action" ∉ Assoc.keys payload) (hne : action ≠ "relate") (relType target : String) :
    relates relType target (rereadEvent F (newEvent env seq agent action ts payload)) = false := by
  refine relates_of_action fun h => hne ?_
  rw [ConfigItem.Action.of, action_newEvent hpayload haction] at h
  dsimp only at h
  split at h
  all_goals first | rfl | cases h

/-- The event of `add_relationship`. -/
theorem relates_addRelationship {relType target authority rt t : String}
    (h : relates rt t (rereadEvent F (newEvent env seq agent "relate" ts
      [("rel_type", .str relType), ("target", .str target), ("authority", .str authority)])) = true) :
    rt = relType ∧ t = target := by
  have hpayload : (Assoc.keys [("rel_type", Json.str relType), ("target", .str target),
      ("authority", .str authority)]).Nodup := by
    show ["rel_type", "target", "authority"].Nodup
    decide
  rw [relates, Bool.and_eq_true, Bool.and_eq_true, Dict.getD, Dict.getD, get?_newEvent hpayload,
    get?_newEvent hpayload, Json.pyEq_str_right_iff, Json.pyEq_str_right_iff] at h
  obtain ⟨⟨-, hrel⟩, htarget⟩ := h
  exact ⟨(Json.str.inj hrel).symm, (Json.str.inj htarget).symm⟩

end

/-! ### Growth of a store -/

section

/-- A directory with the core that may be published and events that may be appended. -/
structure Grown (env : Env) (file : String) (Born : Bytes → Prop) (E : Dict → Prop) (d d' : CiDir) :
    Prop where
  core : d'.core = d.core ∨ d.core = none ∧ ∃ content, d'.core = some content ∧ Born content
  logs : d'.logs = d.logs ∨ ∃ w ws text, (∀ e ∈ w :: ws, Stamped e ∧ E e) ∧
    decodeUtf8 (d.log file) = some text ∧
    d'.logs = Assoc.set d.logs file ((w :: ws).foldl (withLine env.floats) (d.log file))

variable {env : Env} {file : String} {Born : Bytes → Prop} {E : Dict → Prop} {d d' : CiDir}

theorem Grown.refl (d : CiDir) : Grown env file Born E d d := ⟨.inl rfl, .inl rfl⟩

theorem Grown.publish (h : Grown env file Born E d d') {content : Bytes} (hborn : Born content)
    (hcore : d'.core = none) : Grown env file Born E d { d' with core := some content } where
  core := by
    rcases h.core with hcore' | ⟨hnone, -⟩
    · exact .inr ⟨hcore' ▸ hcore, content, rfl, hborn⟩
    · exact .inr ⟨hnone, content, rfl, hborn⟩
  logs := h.logs

/-- One more event. -/
theorem Grown.append (h : Grown env file Born E d d') {e : Dict} (he : Stamped e) (hE : E e)
    {text : List Char} (hdecode : decodeUtf8 (d'.log file) = some text) :
    Grown env file Born E d (d'.setLog file (withLine env.floats (d'.log file) e)) where
  core := h.core
  logs := by
    refine .inr ?_
    rcases h.logs with hlogs | ⟨w, ws, text₀, hws, hdecode₀, hlogs⟩
    · have hlog : d'.log file = d.log file := by rw [CiDir.log, CiDir.log, hlogs]
      refine ⟨e, [], text, List.forall_mem_singleton.mpr ⟨he, hE⟩, hlog ▸ hdecode, ?_⟩
      show Assoc.set d'.logs file _ = _
      rw [hlogs, hlog]
      rfl
    · have hlog : d'.log file = (w :: ws).foldl (withLine env.floats) (d.log file) := by
        rw [CiDir.log, hlogs, Assoc.get?_set_self]
        rfl
      refine ⟨w, ws ++ [e], text₀, ?_, hdecode₀, ?_⟩
      · intro v hv
        rw [← List.cons_append, List.mem_append, List.mem_singleton] at hv
        rcases hv with hv | rfl
        · exact hws v hv
        · exact ⟨he, hE⟩
      · show Assoc.set d'.logs file _ = _
        rw [hlogs, Assoc.set_set, hlog, ← List.cons_append, List.foldl_append]
        rfl

/-- A store with the cores that may be published, the logs that may be written and the relationships
that may be added. -/
def GrownStore (env : Env) (agent : String) (Born : String → Bytes → Prop)
    (Written : String → Prop) (Adds : String → String → String → Prop) (dir dir' : CmdbDir) : Prop :=
  ∀ ciId, Grown env (writerFile env agent) (Born ciId)
    (fun e => Written ciId ∧ ∀ rt t, relates rt t (rereadEvent env.floats e) = true → Adds ciId rt t)
    (dir.ciDir ciId) (dir'.ciDir ciId)

end

/-! ### Writes -/

section

variable {env : Env} {agent : String} {Born : String → Bytes → Prop} {Written : String → Prop}
  {Adds : String → String → String → Prop} {dir : CmdbDir}

/-- What a statement keeps: the store has grown as it may. -/
abbrev Grows (env : Env) (agent : String) (Born : String → Bytes → Prop)
    (Written : String → Prop) (Adds : String → String → String → Prop) (dir : CmdbDir) {α : Type}
    (x : Effect Manager α) : Prop :=
  Keeps (fun s : Manager => GrownStore env agent Born Written Adds dir s.dir) x

theorem ciDir_set {dir : CmdbDir} {ciId x : String} {d : CiDir} :
    CmdbDir.ciDir (Assoc.set dir ciId d) x = if x = ciId then d else dir.ciDir x := by
  rw [CmdbDir.ciDir, Assoc.get?_set]
  split <;> rfl

theorem log_eq (dir : CmdbDir) (ciId file : String) : dir.log ciId file = (dir.ciDir ciId).log file :=
  rfl

theorem log_setLog (dir : CmdbDir) (ciId file : String) (content : Bytes) :
    (dir.setLog ciId file content).log ciId file = content := by
  rw [CmdbDir.setLog, log_eq, ciDir_set, if_pos rfl, CiDir.log, CiDir.setLog, Assoc.get?_set_self]
  rfl

/-- An append to a readable log. -/
theorem run_append {ciId agent : String} {s : Manager} {text : List Char} (action : String)
    (payload : Dict)
    (htext : decodeUtf8 (s.dir.log ciId (writerFile env agent)) = some text) :
    (append env ciId agent action payload).run s = (.ok (),
      { dir := s.dir.setLog ciId (writerFile env agent)
          (withLine env.floats (s.dir.log ciId (writerFile env agent))
            (newEvent env (fileLines text).length agent action (env.now s.ticks) payload))
        ticks := s.ticks + 1 }) := by
  unfold append
  rw [run_get_bind, run_lift_bind, readText_eq_ok.mpr htext]
  rfl

section

variable {ciId : String} (hwritten : Written ciId)
include hwritten

theorem grows_append {action : String} {payload : Dict}
    (h : ∀ seq ts rt t, relates rt t (rereadEvent env.floats
      (newEvent env seq agent action ts payload)) = true → Adds ciId rt t) :
    Grows env agent Born Written Adds dir (append env ciId agent action payload) := by
  intro s hs
  unfold append
  rw [run_get_bind]
  refine run_lift_bind_rule
    (fun r : Except PyError Unit × Manager => GrownStore env agent Born Written Adds dir r.2.dir)
    (fun _ => hs) fun text htext => ?_
  intro x
  show Grown _ _ _ _ (dir.ciDir x) (CmdbDir.ciDir (CmdbDir.setLog s.dir ciId _ _) x)
  rw [CmdbDir.setLog, ciDir_set]
  split
  · rename_i hx
    subst hx
    exact (hs x).append stamped_newEvent ⟨hwritten, fun rt t => h _ _ rt t⟩ (readText_eq_ok.mp htext)
  · exact hs x

/-- A write whose action is another one adds no relationship. -/
theorem grows_append_of_ne {action : String} {payload : Dict}
    (hpayload : (Assoc.keys payload).Nodup) (haction : "action" ∉ Assoc.keys payload)
    (hne : action ≠ "relate") :
    Grows env agent Born Written Adds dir (append env ciId agent action payload) :=
  grows_append hwritten fun seq ts rt t hrelates => by
    rw [relates_newEvent hpayload haction hne] at hrelates
    cases hrelates

theorem grows_addRelationship {relType target authority : String}
    (h : Adds ciId relType target) :
    Grows env agent Born Written Adds dir
      (addRelationship env ciId agent relType target authority) :=
  grows_append hwritten fun seq ts rt t hrelates => by
    obtain ⟨rfl, rfl⟩ := relates_addRelationship hrelates
    exact h

theorem grows_setStatus (status note : String) :
    Grows env agent Born Written Adds dir (setStatus env ciId agent status note) :=
  grows_append_of_ne hwritten (by show ["status", "note"].Nodup; decide)
    (by show "action" ∉ ["status", "note"]; decide) (by decide)

theorem grows_setAttribute (key : String) (value : Json) :
    Grows env agent Born Written Adds dir (setAttribute env ciId agent key value) :=
  (keeps_lift _).bind fun _ =>
    grows_append_of_ne hwritten (by show ["key", "value"].Nodup; decide)
      (by show "action" ∉ ["key", "value"]; decide) (by decide)

theorem grows_removeRelationship (relType target : String) :
    Grows env agent Born Written Adds dir (removeRelationship env ciId agent relType target) :=
  grows_append_of_ne hwritten (by show ["rel_type", "target"].Nodup; decide)
    (by show "action" ∉ ["rel_type", "target"]; decide) (by decide)

theorem grows_setMetadata (key value : String) :
    Grows env agent Born Written Adds dir (setMetadata env ciId agent key value) := by
  unfold setMetadata
  split
  · exact grows_append_of_ne hwritten (by show ["key", "value"].Nodup; decide)
      (by show "action" ∉ ["key", "value"]; decide) (by decide)
  · exact keeps_raise _

theorem grows_addTag (tag authority : String) :
    Grows env agent Born Written Adds dir (addTag env ciId agent tag authority) :=
  grows_append_of_ne hwritten (by show ["tag", "authority"].Nodup; decide)
    (by show "action" ∉ ["tag", "authority"]; decide) (by decide)

theorem grows_removeTag (tag authority : String) :
    Grows env agent Born Written Adds dir (removeTag env ciId agent tag authority) :=
  grows_append_of_ne hwritten (by show ["tag", "authority"].Nodup; decide)
    (by show "action" ∉ ["tag", "authority"]; decide) (by decide)

theorem grows_writeStatus (status : Option CIStatus) :
    Grows env agent Born Written Adds dir (writeStatus env agent ciId status) := by
  cases status with
  | none => exact keeps_pure ()
  | some status => exact grows_setStatus hwritten _ _

end

theorem grownStore_publishCore {dir' : CmdbDir}
    (h : GrownStore env agent Born Written Adds dir dir') {ciId : String} {content : Bytes}
    (hborn : Born ciId content) :
    GrownStore env agent Born Written Adds dir (dir'.publishCore ciId content) := by
  unfold CmdbDir.publishCore
  split
  · exact h
  · rename_i hcore
    intro x
    rw [ciDir_set]
    split
    · rename_i hx
      subst hx
      exact (h x).publish hborn (Option.not_isSome_iff_eq_none.mp hcore)
    · exact h x

/-- What `get_ci` makes of a core and the lines of one log. -/
def itemOfLines (env : Env) (ciId file : String) (core : Json) (lines : List Dict) :
    Except PyError (Option ConfigItem) := do
  let ci ← ConfigItem.ofCore env ciId core
  let events ← (lines.map (rereadEvent env.floats)).mapM fun e => do
    let _ ← eventVersion env file e
    pure e
  let events ← sortByKey eventKey [events].flatten
  let ci ← events.foldlM (ConfigItem.step env) ci
  pure (some ci)

/-- `get_ci` of a core and one log reads the lines of the log. -/
theorem getCi_of_lines {ciId file : String} {content : Bytes} {core : Json} {lines : List Dict}
    (hcore : (dir.ciDir ciId).core = some content)
    (hvalue : CmdbDir.coreValue env content = some core)
    (hlogs : (dir.ciDir ciId).logs = [(file, lines.foldl (withLine env.floats) [])])
    (hfile : endsWith file ".jsonl" = true) (hlines : ∀ e ∈ lines, Stamped e) :
    dir.getCi env ciId = itemOfLines env ciId file core lines := by
  have hsorted : (dir.ciDir ciId).sortedLogs = [(file, lines.foldl (withLine env.floats) [])] := by
    rw [CiDir.sortedLogs, hlogs, List.filter_cons_of_pos (by exact hfile)]
    rfl
  have hempty : decodeUtf8 [] = some [] := rfl
  have htext : readText (lines.foldl (withLine env.floats) []) =
      .ok ([] ++ lines.flatMap (lineOf env.floats)) :=
    readText_eq_ok.mpr (decodeUtf8_withLines hempty)
  have hread : eventsOfText env.floats ([] ++ lines.flatMap (lineOf env.floats)) =
      [] ++ lines.map (rereadEvent env.floats) := eventsOfText_appends hlines rfl rfl
  unfold CmdbDir.getCi itemOfLines
  rw [hcore]
  dsimp only
  rw [hvalue]
  dsimp only
  refine congrArg _ (funext fun ci => ?_)
  rw [CmdbDir.readEvents, hsorted, List.mapM_cons, List.mapM_nil, readLog, htext, ok_bind, hread,
    List.nil_append]
  simp only [bind_assoc, pure_bind]

/-- A core that was written is read. -/
theorem coreValue_written (core : Dict) :
    CmdbDir.coreValue env (coreContent env.floats core) =
      some (.obj (rereadEvent env.floats core)) := by
  rw [CmdbDir.coreValue, coreContent, decodeUtf8_encodeUtf8, Option.bind_some, Json.loads_pretty]
  rfl

/-- A core that `create_ci` writes. -/
def CoreOf (env : Env) (ciId : String) (content : Bytes) : Prop :=
  ∃ core : Dict, (Assoc.keys core).Nodup ∧ Assoc.get? core "id" = some (.str ciId) ∧
    content = coreContent env.floats core

theorem coreOf_newCore (ciId ciType name description owner node : String) (attributes : Dict)
    (tags : List String) (createdAt : String) : CoreOf env ciId (coreContent env.floats
      (newCore ciId ciType name description owner node attributes tags createdAt)) := by
  refine ⟨_, ?_, rfl, rfl⟩
  show ["schema_version", "id", "ci_type", "name", "description", "owner", "node", "attributes",
    "tags", "created_at"].Nodup
  decide

theorem grows_createCi {name ciType description owner node : String} {attributes : Dict}
    {tags : List String} {ciId : String} (hne : ciId ≠ "")
    (hborn : ∀ content, CoreOf env ciId content → Born ciId content) :
    Grows env agent Born Written Adds dir
      (createCi env name ciType description owner node attributes tags ciId) := by
  unfold createCi
  rw [if_neg hne]
  refine (keeps_lift _).bind fun _ => Keeps.bind (fun s hs => hs) fun createdAt => ?_
  exact Keeps.bind (fun s hs =>
      grownStore_publishCore hs (hborn _ (coreOf_newCore _ _ _ _ _ _ _ _ _))) fun _ =>
    keeps_get.bind fun s => keeps_lift _

theorem grows_forEach {α : Type} {l : List α} {x : α → Effect Manager Unit}
    (h : ∀ a ∈ l, Grows env agent Born Written Adds dir (x a)) :
    Grows env agent Born Written Adds dir (forEach l x) :=
  Keeps.foldlM (fun a ha _ => h a ha) ()

theorem grows_onlyIf {b : Bool} {x : Effect Manager Unit}
    (h : Grows env agent Born Written Adds dir x) :
    Grows env agent Born Written Adds dir (onlyIf b x) := by
  unfold onlyIf
  split
  · exact h
  · exact keeps_pure ()

/-! ### The loops -/

variable {existing : Assoc String ConfigItem} {apply : Bool}

/-- The creation of an item appends an event: of a tag with an authority, of a status other than the
one of every new item, or of a relationship. -/
def CleanCI.AppendsNew (c : CleanCI) (derived : Option CIStatus) : Prop :=
  (c.item.authority ≠ "" ∧ c.item.tags ≠ []) ∨
    (∃ status, derived = some status ∧ status ≠ .operational) ∨ c.item.relationships ≠ []

/-- The turn of an item appends an event: that of a stored item, when something has changed. -/
def Appends (env : Env) (existing : Assoc String ConfigItem) (p : String × CleanCI) : Prop :=
  ∃ derived, observedStatus p.2 = .ok derived ∧
    match Assoc.get? existing p.1 with
    | none => p.2.AppendsNew derived
    | some current => (p.2.changes env derived current).isEmpty = false

/-- What follows the core of a new item. -/
theorem grows_createItem_tail {ciId : String} {c : CleanCI} {derived : Option CIStatus}
    {report : ReconcileReport} (hwritten : c.AppendsNew derived → Written ciId)
    (hadds : ∀ rel ∈ c.item.relationships, Adds ciId rel.1 rel.2) :
    Grows env agent Born Written Adds dir (do
      onlyIf (c.item.authority ≠ "")
        (forEach c.item.tags fun tag => addTag env ciId agent tag c.item.authority)
      writeStatus env agent ciId (derived.filter fun status => status ≠ .operational)
      addRelationships env agent ciId c.item.authority report c.item.relationships) := by
  refine Keeps.bind ?_ fun _ => Keeps.bind ?_ fun _ => ?_
  · by_cases hauthority : c.item.authority ≠ ""
    · exact grows_onlyIf (grows_forEach fun tag htag =>
        grows_addTag (hwritten (.inl ⟨hauthority, List.ne_nil_of_mem htag⟩)) _ _)
    · rw [decide_eq_false hauthority]
      exact keeps_pure ()
  · cases hstatus : derived.filter fun status => status ≠ .operational with
    | none => exact keeps_pure ()
    | some status =>
      obtain ⟨hderived, hne⟩ := Option.filter_eq_some_iff.mp hstatus
      exact grows_writeStatus
        (hwritten (.inr (.inl ⟨status, hderived, of_decide_eq_true hne⟩))) _
  · exact Keeps.foldlM (fun rel hrel report => (grows_addRelationship
      (hwritten (.inr (.inr (List.ne_nil_of_mem hrel)))) (hadds rel hrel)).bind fun _ =>
        keeps_pure _) report

theorem grows_createItem {ciId : String} {c : CleanCI} {derived : Option CIStatus}
    {report : ReconcileReport} (hne : ciId ≠ "")
    (hborn : ∀ content, CoreOf env ciId content → Born ciId content)
    (hwritten : c.AppendsNew derived → Written ciId)
    (hadds : ∀ rel ∈ c.item.relationships, Adds ciId rel.1 rel.2) :
    Grows env agent Born Written Adds dir (createItem env agent ciId c derived report) :=
  (grows_createCi hne hborn).bind fun _ => grows_createItem_tail hwritten hadds

theorem grows_applyChanges {ciId : String} {c : CleanCI} {d : Changes} (hwritten : Written ciId)
    (hadds : ∀ rel ∈ d.missingRels, Adds ciId rel.1 rel.2) :
    Grows env agent Born Written Adds dir (applyChanges env agent ciId c d) := by
  unfold applyChanges
  refine (grows_forEach fun p _ => grows_setAttribute hwritten _ _).bind fun _ => ?_
  refine (grows_writeStatus hwritten _).bind fun _ => ?_
  refine (grows_forEach fun rel hrel =>
    grows_addRelationship hwritten (hadds rel hrel)).bind fun _ => ?_
  refine (grows_forEach fun rel _ => grows_removeRelationship hwritten _ _).bind fun _ => ?_
  refine (grows_forEach fun p _ => grows_setMetadata hwritten _ _).bind fun _ => ?_
  refine (grows_forEach fun tag _ => grows_addTag hwritten _ _).bind fun _ => ?_
  exact grows_forEach fun tag _ => grows_removeTag hwritten _ _

/-- **One item** publishes the core that it has none of, writes its log when something has changed
and adds its own relationships. -/
theorem grows_reconcileItem {p : String × CleanCI}
    (hborn : Assoc.get? existing p.1 = none →
      p.1 ≠ "" ∧ ∀ content, CoreOf env p.1 content → Born p.1 content)
    (hwritten : Appends env existing p → Written p.1)
    (hadds : ∀ rel ∈ p.2.item.relationships, Adds p.1 rel.1 rel.2) (report : ReconcileReport) :
    Grows env agent Born Written Adds dir
      (reconcileItem env agent apply existing report p) := by
  unfold reconcileItem
  refine keeps_lift_bind fun derived hderived => ?_
  unfold Appends at hwritten
  cases hget : Assoc.get? existing p.1 with
  | none =>
    obtain ⟨hne, hborn⟩ := hborn hget
    rw [hget] at hwritten
    dsimp only
    unfold reconcileNew
    dsimp only
    split
    · exact grows_createItem hne hborn (fun happends => hwritten ⟨derived, hderived, happends⟩) hadds
    · exact keeps_pure _
  | some current =>
    rw [hget] at hwritten
    dsimp only
    unfold reconcileStored
    dsimp only
    split
    · exact keeps_pure _
    · rename_i hchanged
      have hwritten := hwritten ⟨derived, hderived, Bool.eq_false_iff.mpr hchanged⟩
      refine (grows_onlyIf (grows_applyChanges hwritten fun rel hrel => ?_)).bind fun _ =>
        keeps_pure _
      exact hadds rel (List.mem_of_mem_filter hrel)

/-- **One migration** adds its link, where there is none. -/
theorem grows_linkAlias {m : String × String}
    (hadds : isAliasOf existing m = false → Written m.1 ∧ Adds m.1 "alias_of" m.2)
    (report : ReconcileReport) :
    Grows env agent Born Written Adds dir (linkAlias env agent apply existing report m) := by
  unfold linkAlias
  split
  · exact keeps_pure _
  · rename_i hlinked
    obtain ⟨hwritten, hadds⟩ := hadds (Bool.eq_false_iff.mpr hlinked)
    exact (grows_onlyIf (grows_addRelationship hwritten hadds)).bind fun _ => keeps_pure _

/-- **Both loops**. -/
theorem grows_reconcileIdentified {scanComplete : Bool} {identified : Identified}
    (hborn : ∀ p ∈ identified.byId, Assoc.get? existing p.1 = none →
      p.1 ≠ "" ∧ ∀ content, CoreOf env p.1 content → Born p.1 content)
    (hwritten : ∀ p ∈ identified.byId, Appends env existing p → Written p.1)
    (hadds : ∀ p ∈ identified.byId, ∀ rel ∈ p.2.item.relationships, Adds p.1 rel.1 rel.2)
    (hlinks : scanComplete = true → ∀ m ∈ identified.migrations, isAliasOf existing m = false →
      Written m.1 ∧ Adds m.1 "alias_of" m.2)
    (report : ReconcileReport) :
    Grows env agent Born Written Adds dir
      (reconcileIdentified env agent apply scanComplete existing identified report) := by
  unfold reconcileIdentified
  refine Keeps.bind (Keeps.foldlM (fun p hp report =>
    grows_reconcileItem (hborn p hp) (hwritten p hp) (hadds p hp) report) report) fun report => ?_
  cases scanComplete with
  | false => exact keeps_pure _
  | true =>
    refine Keeps.foldlM (fun m hm report => grows_linkAlias (hlinks rfl m ?_) report) _
    exact List.mem_dedup.mp ((List.mem_insertionSort _).mp hm)

/-! ### Edges of a store that has grown -/

theorem endsWith_writerFile (env : Env) (agent : String) :
    endsWith (writerFile env agent) ".jsonl" = true := by
  rw [endsWith, writerFile, String.toList_append, List.isSuffixOf_iff_suffix]
  exact List.suffix_append _ _

/-- **Edges of a store that has grown** are old ones, show without the unfinished line of a log that
is written, or may be added. -/
theorem edge_of_grownStore {dir' : CmdbDir} (h : GrownStore env agent Born Written Adds dir dir')
    {ciId relType target : String}
    (hedge : edgeIn relType target ((dir'.ciDir ciId).events env.floats) = true) :
    edgeIn relType target ((dir.ciDir ciId).events env.floats) = true ∨
      (Written ciId ∧ edgeIn relType target
        (((dir.ciDir ciId).cut (writerFile env agent)).events env.floats) = true) ∨
      Adds ciId relType target := by
  rcases (h ciId).logs with hlogs | ⟨w, ws, text, hws, hdecode, hlogs⟩
  · rw [CiDir.events, hlogs] at hedge
    exact .inl hedge
  · rw [CiDir.events, hlogs] at hedge
    rcases edge_of_appends (endsWith_writerFile env agent) hdecode (fun e he => (hws e he).1)
      hedge with hcut | ⟨e, he, hrelates⟩
    · exact .inr (.inl ⟨(hws w List.mem_cons_self).2.1, hcut⟩)
    · exact .inr (.inr ((hws e he).2.2 _ _ hrelates))

/-! ### Items of a store that has grown -/

theorem mem_ciNames_of_core {x : String} {content : Bytes}
    (h : (dir.ciDir x).core = some content) : x ∈ dir.ciNames := by
  rw [CmdbDir.ciDir] at h
  cases hget : Assoc.get? dir x with
  | none =>
    rw [hget] at h
    cases h
  | some d =>
    rw [hget, Option.getD_some] at h
    rw [CmdbDir.ciNames, List.mem_insertionSort, List.mem_map]
    exact ⟨(x, d), List.mem_filter.mpr ⟨Assoc.mem_of_get? hget, by rw [h]; rfl⟩, rfl⟩

/-- Where `list_cis` returns, so does `get_ci` of every directory with a core. -/
theorem getCi_of_listCis {cis : List ConfigItem} (h : dir.listCis env = .ok cis) {x : String}
    {content : Bytes} (hcore : (dir.ciDir x).core = some content) :
    ∃ r, dir.getCi env x = .ok r ∧ ∀ ci, r = some ci → ci ∈ cis := by
  obtain ⟨rs, hrs, h⟩ := bind_eq_ok.mp h
  rw [← pure_eq_ok.mp h]
  obtain ⟨r, hmem, hr⟩ := mapM_ok_of_mem hrs x (mem_ciNames_of_core hcore)
  exact ⟨r, hr, fun ci hci => List.mem_filterMap.mpr ⟨r, hmem, hci⟩⟩

/-- `get_ci` finds an item where the core has a value. -/
theorem exists_of_getCi {x : String} {content : Bytes} {core : Json} {r : Option ConfigItem}
    (hcontent : (dir.ciDir x).core = some content)
    (hvalue : CmdbDir.coreValue env content = some core) (h : dir.getCi env x = .ok r) :
    ∃ ci, r = some ci := by
  unfold CmdbDir.getCi at h
  rw [hcontent] at h
  dsimp only at h
  rw [hvalue] at h
  obtain ⟨ci₀, -, h⟩ := bind_eq_ok.mp h
  obtain ⟨events, -, h⟩ := bind_eq_ok.mp h
  obtain ⟨ci, -, h⟩ := bind_eq_ok.mp h
  exact ⟨ci, (pure_eq_ok.mp h).symm⟩

/-- **Items of a store that has grown** are old ones, or have a core that was published. -/
theorem item_of_grownStore {dir' : CmdbDir} (h : GrownStore env agent Born Written Adds dir dir')
    {cis : List ConfigItem} (hcis : dir.listCis env = .ok cis) {x : String} {ci' : ConfigItem}
    (hci' : dir'.getCi env x = .ok (some ci')) :
    (∃ ci ∈ cis, dir.getCi env x = .ok (some ci)) ∨
      (dir.ciDir x).core = none ∧ ∃ content, Born x content := by
  rcases (h x).core with hcore | ⟨hnone, content, -, hborn⟩
  · obtain ⟨content, core, -, hcontent, hvalue, -, -⟩ := getCi_eq_ok hci'
    rw [hcore] at hcontent
    obtain ⟨r, hr, hmem⟩ := getCi_of_listCis hcis hcontent
    obtain ⟨ci, hci⟩ := exists_of_getCi hcontent hvalue hr
    exact .inl ⟨ci, hmem ci hci, hci ▸ hr⟩
  · exact .inr ⟨hnone, content, hborn⟩

/-! ### Identified items -/

theorem get?_byIdentifier {cis : List ConfigItem} {ciId : String} {ci : ConfigItem}
    (h : Assoc.get? (byIdentifier cis) ciId = some ci) : ci ∈ cis ∧ ci.id = ciId := by
  rcases Assoc.get?_foldl_set ConfigItem.id id ciId cis [] with ⟨-, hnone⟩ | ⟨x, hx, hid, hget⟩
  · cases hnone.symm.trans h
  · cases (hget.symm.trans h)
    exact ⟨hx, hid⟩

/-- An identifier that is not stored is the item's own. -/
theorem resolve_of_new {cis : List ConfigItem} {item : DiscoveredCI}
    {r : String × List (String × String)} (h : resolve env (byIdentifier cis) item = .ok r)
    (hnone : Assoc.get? (byIdentifier cis) r.1 = none) : r.1 = item.ciId env.tables := by
  unfold resolve at h
  dsimp only at h
  split at h
  · obtain ⟨ids, -, h⟩ := bind_eq_ok.mp h
    rw [← pure_eq_ok.mp h] at hnone ⊢
    dsimp only at hnone ⊢
    cases hget : Assoc.get? (byIdentifier cis) (item.ciId env.tables) with
    | some ci =>
      rw [Option.orElse_some, Option.map_some, Option.getD_some]
      exact (get?_byIdentifier hget).2
    | none =>
      rw [hget, Option.orElse_none] at hnone
      rw [Option.orElse_none]
      -- an item that was found is stored under its own identifier
      cases hhead : ((ids.filterMap fun cid => Assoc.get? (byIdentifier cis) cid).filter
          fun ci => ci.ciType = item.ciType).head? with
      | none => rfl
      | some ci =>
        obtain ⟨cid, -, hcid⟩ := List.mem_filterMap.mp
          (List.mem_of_mem_filter (List.mem_of_head? hhead))
        rw [hhead, Option.map_some, Option.getD_some, (get?_byIdentifier hcid).2, hcid] at hnone
        cases hnone
  · rw [← pure_eq_ok.mp h]

theorem mem_byId_of_identify {cis : List ConfigItem} : ∀ {items : List CleanCI} {s t : Identified},
    items.foldlM (identifyItem env (byIdentifier cis)) s = .ok t →
      ∀ p ∈ t.byId, p ∈ s.byId ∨ p.2 ∈ items ∧
        (Assoc.get? (byIdentifier cis) p.1 = none → p.1 = p.2.item.ciId env.tables)
  | [], s, t, h => by
    cases h
    exact fun p hp => .inl hp
  | c :: items, s, t, h => by
    rw [List.foldlM_cons] at h
    obtain ⟨s₁, h1, h2⟩ := bind_eq_ok.mp h
    obtain ⟨r, hr, h1⟩ := bind_eq_ok.mp h1
    cases h1
    intro p hp
    rcases mem_byId_of_identify h2 p hp with hp | ⟨hmem, hid⟩
    · rcases Assoc.mem_set hp with rfl | hp
      · exact .inr ⟨List.mem_cons_self, fun hnone => resolve_of_new hr hnone⟩
      · exact .inl hp
    · exact .inr ⟨List.mem_cons_of_mem _ hmem, hid⟩

end

/-! ### One call -/

section

variable (env : Env) (scanComplete : Bool) (existing : Assoc String ConfigItem) (s : Identified)

/-- A call may add the relationship, once it has identified the items of its batch. -/
def NewEdge (ciId relType target : String) : Prop :=
  (scanComplete = true ∧ relType = "alias_of" ∧ (ciId, target) ∈ s.migrations ∧
      isAliasOf existing (ciId, target) = false) ∨
    ∃ c, (ciId, c) ∈ s.byId ∧ (relType, target) ∈ c.item.relationships

/-- A call may publish the core of an item. -/
def Creates (ciId : String) : Prop := ciId ∈ Assoc.keys s.byId ∧ Assoc.get? existing ciId = none

/-- A call that returns writes to the log of an item: in its turn, or to link it to another one. -/
def Writes (ciId : String) : Prop :=
  (∃ c, (ciId, c) ∈ s.byId ∧ Appends env existing (ciId, c)) ∨
    (scanComplete = true ∧ ∃ target, (ciId, target) ∈ s.migrations ∧
      isAliasOf existing (ciId, target) = false)

end

theorem makeCiId_ne (u : CharTables) (ciType name : String) : makeCiId u ciType name ≠ "" := by
  intro h
  have hlist := congrArg String.toList h
  rw [makeCiId, String.toList_append, String.toList_append, String.toList_append] at hlist
  cases hlist

theorem key_ne_of_identify {env : Env} {cis : List ConfigItem} {items : List CleanCI}
    {identified : Identified} (h : identify env (byIdentifier cis) items = .ok identified) :
    ∀ p ∈ identified.byId, Assoc.get? (byIdentifier cis) p.1 = none → p.1 ≠ "" := by
  intro p hp hnone
  rcases mem_byId_of_identify h p hp with hp | ⟨-, hid⟩
  · exact (List.not_mem_nil hp).elim
  · rw [hid hnone]
    exact makeCiId_ne _ _ _

/-- **One call** of `reconcile` leaves the store, or has identified its batch and let the store
grow. -/
theorem grownStore_reconcile (env : Env) (discovered : List DiscoveredCI) (agent : String)
    (apply scanComplete : Bool) (s : Manager) :
    ((reconcile env discovered agent apply scanComplete).run s).2 = s ∨
      ∃ items findings cis identified,
        validatedDiscovery env s.dir discovered = .ok (items, [], findings) ∧
        s.dir.listCis env = .ok cis ∧ identify env (byIdentifier cis) items = .ok identified ∧
        GrownStore env agent
          (fun x content => Creates (byIdentifier cis) identified x ∧ CoreOf env x content)
          (Writes env scanComplete (byIdentifier cis) identified)
          (NewEdge scanComplete (byIdentifier cis) identified) s.dir
          ((reconcile env discovered agent apply scanComplete).run s).2.dir := by
  rw [run_reconcile]
  cases hvalid : validatedDiscovery env s.dir discovered with
  | error e => exact .inl rfl
  | ok v =>
    obtain ⟨items, failures, findings⟩ := v
    dsimp only
    by_cases hfailures : failures.isEmpty = true
    · rw [if_pos hfailures]
      rw [List.isEmpty_iff] at hfailures
      subst hfailures
      cases hcis : s.dir.listCis env with
      | error e => exact .inl rfl
      | ok cis =>
        dsimp only
        cases hidentify : identify env (byIdentifier cis) items with
        | error e => exact .inl rfl
        | ok identified =>
          refine .inr ⟨items, findings, cis, identified, rfl, rfl, hidentify, ?_⟩
          have hkeys : ∀ p ∈ identified.byId, p.1 ∈ Assoc.keys identified.byId :=
            fun p hp => List.mem_map_of_mem hp
          refine grows_reconcileIdentified ?_ (fun p hp happends => .inl ⟨p.2, hp, happends⟩)
            (fun p hp rel hrel => .inr ⟨p.2, hp, hrel⟩) ?_ _ s fun x => Grown.refl _
          · exact fun p hp hnone => ⟨key_ne_of_identify hidentify p hp hnone,
              fun content hcontent => ⟨⟨hkeys p hp, hnone⟩, hcontent⟩⟩
          · exact fun hscan m hm hlinked =>
              ⟨.inr ⟨hscan, m.2, hm, hlinked⟩, .inl ⟨hscan, rfl, hm, hlinked⟩⟩
    · rw [if_neg hfailures]
      exact .inl rfl

end SkCoord.Cmdb
