import SkCoord.Cmdb.Equiv.Sanitize
import SkCoord.Cmdb.Equiv.Targets

/-!
# Secrets stay out of the store

`secrets_stay_out`: whatever items are created, attributes set and batches reconciled, no mapping in
the attributes of a stored item has a secret key, and a run artifact shows nothing under one.
-/

namespace SkCoord.Cmdb

open Python Python.Effect

/-! ### Values without secret keys -/

mutual

/-- The keys of the mappings in a value, at any depth. -/
def mappingKeys : Json → List String
  | .obj d => fieldKeys d
  | .arr l => elemKeys l
  | _ => []

def fieldKeys : List (String × Json) → List String
  | [] => []
  | (key, child) :: d => key :: mappingKeys child ++ fieldKeys d

def elemKeys : List Json → List String
  | [] => []
  | child :: l => mappingKeys child ++ elemKeys l

end

/-- No mapping key at any depth contains a secret fragment. -/
def SecretFree (env : Env) (v : Json) : Prop :=
  ∀ key ∈ mappingKeys v, isSecretAttributeKey env key = false

variable {env : Env}

theorem mem_fieldKeys {key : String} {d : List (String × Json)} :
    key ∈ fieldKeys d ↔ ∃ p ∈ d, key = p.1 ∨ key ∈ mappingKeys p.2 := by
  induction d with
  | nil => simp [fieldKeys]
  | cons p d ih =>
    rw [fieldKeys, List.cons_append, List.mem_cons, List.mem_append, ih, ← or_assoc]
    simp only [List.mem_cons, exists_eq_or_imp]

/-- The fields of a dictionary. -/
theorem secretFree_obj {d : Dict} :
    SecretFree env (.obj d) ↔
      ∀ p ∈ d, isSecretAttributeKey env p.1 = false ∧ SecretFree env p.2 := by
  constructor
  · intro h p hp
    exact ⟨h p.1 (mem_fieldKeys.mpr ⟨p, hp, .inl rfl⟩),
      fun key hkey => h key (mem_fieldKeys.mpr ⟨p, hp, .inr hkey⟩)⟩
  · intro h key hkey
    obtain ⟨p, hp, rfl | hkey⟩ := mem_fieldKeys.mp hkey
    · exact (h p hp).1
    · exact (h p hp).2 key hkey

mutual

/-- **A value that is let through** has no secret keys. -/
theorem secretFree_of_paths : ∀ {v : Json} {path : String}, secretAttributePaths env path v = [] →
    SecretFree env v
  | .obj d, _, h => secretFree_of_fieldPaths (d := d) h
  | .arr l, _, h => secretFree_of_elemPaths (l := l) h
  | .null, _, _ | .bool _, _, _ | .int _, _, _ | .float _, _, _ | .str _, _, _ =>
    fun _ hkey => absurd hkey List.not_mem_nil

theorem secretFree_of_fieldPaths : ∀ {d : List (String × Json)} {path : String},
    secretFieldPaths env path d = [] →
      ∀ key ∈ fieldKeys d, isSecretAttributeKey env key = false
  | [], _, _, _, hkey => absurd hkey List.not_mem_nil
  | (k, child) :: d, _, h, key, hkey => by
    simp only [secretFieldPaths, List.append_eq_nil_iff] at h
    rw [fieldKeys, List.cons_append, List.mem_cons, List.mem_append] at hkey
    rcases hkey with rfl | hkey | hkey
    · by_contra hsecret
      rw [Bool.not_eq_false] at hsecret
      rw [if_pos hsecret] at h
      exact List.cons_ne_nil _ _ h.1.1
    · exact secretFree_of_paths h.1.2 key hkey
    · exact secretFree_of_fieldPaths h.2 key hkey

theorem secretFree_of_elemPaths : ∀ {l : List Json} {path : String} {index : ℕ},
    secretElemPaths env path index l = [] →
      ∀ key ∈ elemKeys l, isSecretAttributeKey env key = false
  | [], _, _, _, _, hkey => absurd hkey List.not_mem_nil
  | child :: l, _, _, h, key, hkey => by
    simp only [secretElemPaths, List.append_eq_nil_iff] at h
    rw [elemKeys, List.mem_append] at hkey
    rcases hkey with hkey | hkey
    · exact secretFree_of_paths h.1 key hkey
    · exact secretFree_of_elemPaths h.2 key hkey

end

theorem secretFree_of_validate {v : Json} {u : Unit}
    (h : validateAttributeWrite env v = .ok u) : SecretFree env v := by
  unfold validateAttributeWrite at h
  split at h
  · rename_i hpaths
    exact secretFree_of_paths hpaths
  · exact absurd h throw_ne_ok

/-! ### Values that are read back -/

theorem mem_of_mem_update {p : String × Json} : ∀ {u d : Dict},
    p ∈ u.foldl (fun d q => Assoc.set d q.1 q.2) d → p ∈ d ∨ p ∈ u
  | [], _, h => .inl h
  | q :: u, d, h => by
    rw [List.foldl_cons] at h
    rcases mem_of_mem_update h with h | h
    · rcases Assoc.mem_set h with rfl | h
      · exact .inr List.mem_cons_self
      · exact .inl h
    · exact .inr (List.mem_cons_of_mem _ h)

theorem mem_of_mem_ofPairs {p : String × Json} {l : List (String × Json)}
    (h : p ∈ Json.ofPairs l) : p ∈ l :=
  (mem_of_mem_update h).resolve_left List.not_mem_nil

variable {F : FloatText}

mutual

theorem mappingKeys_reread : ∀ (v : Json) {key : String}, key ∈ mappingKeys (v.reread F) →
    key ∈ mappingKeys v
  | .obj d, key, h => by
    rw [Json.reread, mappingKeys] at h
    obtain ⟨p, hp, hkey⟩ := mem_fieldKeys.mp h
    exact fieldKeys_reread d (mem_fieldKeys.mpr ⟨p, mem_of_mem_ofPairs hp, hkey⟩)
  | .arr l, _, h => elemKeys_reread l h
  | .null, _, h | .bool _, _, h | .int _, _, h | .str _, _, h => h
  | .float _, _, h => h

theorem fieldKeys_reread : ∀ (d : List (String × Json)) {key : String},
    key ∈ fieldKeys (Json.rereadFields F d) → key ∈ fieldKeys d
  | [], _, h => h
  | (k, child) :: d, key, h => by
    rw [Json.rereadFields, fieldKeys, List.cons_append, List.mem_cons, List.mem_append] at h
    rw [fieldKeys, List.cons_append, List.mem_cons, List.mem_append]
    exact h.imp_right (Or.imp (mappingKeys_reread child) (fieldKeys_reread d))

theorem elemKeys_reread : ∀ (l : List Json) {key : String},
    key ∈ elemKeys (Json.rereadElems F l) → key ∈ elemKeys l
  | [], _, h => h
  | child :: l, key, h => by
    rw [Json.rereadElems, elemKeys, List.mem_append] at h
    rw [elemKeys, List.mem_append]
    exact h.imp (mappingKeys_reread child) (elemKeys_reread l)

end

theorem secretFree_reread {v : Json} (h : SecretFree env v) : SecretFree env (v.reread F) :=
  fun key hkey => h key (mappingKeys_reread v hkey)

/-! ### Clean items -/

/-- No mapping in the attributes of an item has a secret key. -/
def ConfigItem.SecretFree (env : Env) (ci : ConfigItem) : Prop :=
  ∀ p ∈ ci.attributes,
    isSecretAttributeKey env (env.format p.1) = false ∧ Cmdb.SecretFree env p.2

/-- An event that sets no attribute, or a clean one. -/
def CleanEvent (env : Env) (e : Dict) : Prop :=
  ConfigItem.Action.of e = .setAttribute →
    isSecretAttributeKey env (env.format (e.get "key")) = false ∧
      SecretFree env (e.get "value")

/-- A core without secret keys. -/
def CleanCore (env : Env) (content : Bytes) : Prop :=
  ∀ core x ci, CmdbDir.coreValue env content = some core →
    ConfigItem.ofCore env x core = .ok ci → ci.SecretFree env

theorem mem_setItem {k v : Json} {p : Json × Json} : ∀ {l : List (Json × Json)},
    p ∈ setItem k v l → p ∈ l ∨ p.2 = v ∧ (p.1 = k ∨ p.1 ∈ l.map Prod.fst)
  | [], h => by
    cases List.mem_singleton.mp h
    exact .inr ⟨rfl, .inl rfl⟩
  | (k', w) :: l, h => by
    rw [setItem] at h
    split at h
    · rcases List.mem_cons.mp h with rfl | h
      · exact .inr ⟨rfl, .inr List.mem_cons_self⟩
      · exact .inl (List.mem_cons_of_mem _ h)
    · rcases List.mem_cons.mp h with rfl | h
      · exact .inl List.mem_cons_self
      · exact (mem_setItem h).imp (List.mem_cons_of_mem _)
          (And.imp_right (Or.imp_right (List.mem_cons_of_mem _)))

/-- Only an attribute event changes the attributes. -/
theorem attributes_foldAction {ci ci' : ConfigItem} {e : Dict} {a : ConfigItem.Action}
    (h : ci.foldAction env e a = .ok ci') : ci'.attributes = ci.attributes ∨
      a = .setAttribute ∧ ci'.attributes = setItem (e.get "key") (e.get "value") ci.attributes := by
  cases a with
  | status => exact .inl (by rw [← pure_eq_ok.mp h, ConfigItem.foldStatus])
  | unrelate => exact .inl (by rw [← pure_eq_ok.mp h, ConfigItem.foldUnrelate])
  | other => exact .inl (by rw [← pure_eq_ok.mp h])
  | setAttribute =>
    unfold ConfigItem.foldAction ConfigItem.foldAttribute at h
    dsimp only at h
    split at h
    · obtain ⟨-, -, h⟩ := bind_eq_ok.mp h
      exact .inr ⟨rfl, by rw [← pure_eq_ok.mp h]⟩
    · exact .inl (by rw [← pure_eq_ok.mp h])
  | relate =>
    obtain ⟨rel, -, h⟩ := bind_eq_ok.mp h
    rw [← pure_eq_ok.mp h]
    exact .inl (by split <;> rfl)
  | metadata =>
    obtain ⟨-, -, h⟩ := bind_eq_ok.mp h
    split at h
    · rw [← pure_eq_ok.mp h]
      unfold ConfigItem.setMetadata
      exact .inl (by split <;> rfl)
    · exact .inl (by rw [← pure_eq_ok.mp h])
  | tag =>
    rw [← pure_eq_ok.mp h]
    unfold ConfigItem.foldTag
    exact .inl (by split <;> rfl)
  | untag =>
    rw [← pure_eq_ok.mp h]
    unfold ConfigItem.foldUntag
    dsimp only
    refine .inl ?_
    split
    · split <;> rfl
    · rfl

theorem attributes_ofCore {x : String} {core : Dict} {ci : ConfigItem}
    (h : ConfigItem.ofCore env x (.obj core) = .ok ci) :
    ∃ l, dictOfValue (Dict.getD core "attributes" (.obj [])) = .ok l ∧ ci.attributes = l := by
  obtain ⟨version, -, h⟩ := bind_eq_ok.mp h
  obtain ⟨idValue, -, h⟩ := bind_eq_ok.mp h
  obtain ⟨attributes, hattributes, h⟩ := bind_eq_ok.mp h
  obtain ⟨tags, -, h⟩ := bind_eq_ok.mp h
  obtain ⟨idText, -, h⟩ := bind_eq_ok.mp h
  obtain ⟨ciType, -, h⟩ := bind_eq_ok.mp h
  obtain ⟨name, -, h⟩ := bind_eq_ok.mp h
  obtain ⟨description, -, h⟩ := bind_eq_ok.mp h
  obtain ⟨owner, -, h⟩ := bind_eq_ok.mp h
  obtain ⟨node, -, h⟩ := bind_eq_ok.mp h
  obtain ⟨createdAt, -, h⟩ := bind_eq_ok.mp h
  exact ⟨attributes, hattributes, by rw [← pure_eq_ok.mp h]⟩

theorem secretFree_step {ci ci' : ConfigItem} {e : Dict} (hci : ci.SecretFree env)
    (he : CleanEvent env e) (h : ci.step env e = .ok ci') : ci'.SecretFree env := by
  obtain ⟨c, hfold, htouch⟩ := bind_eq_ok.mp h
  rw [← pure_eq_ok.mp htouch]
  show ConfigItem.SecretFree env c
  unfold ConfigItem.SecretFree
  rcases attributes_foldAction hfold with hsame | ⟨haction, hset⟩
  · rw [hsame]
    exact hci
  · obtain ⟨hkey, hvalue⟩ := he haction
    rw [hset]
    intro p hp
    rcases mem_setItem hp with hp | ⟨hp2, hp1⟩
    · exact hci p hp
    · refine ⟨?_, hp2 ▸ hvalue⟩
      rcases hp1 with hp1 | hp1
      · rwa [hp1]
      · -- an equal key that is bound stays as it is
        obtain ⟨q, hq, hqp⟩ := List.mem_map.mp hp1
        exact hqp ▸ (hci q hq).1

/-! ### Clean stores -/

/-- No file of a store has an attribute with a secret key. -/
def CleanStore (env : Env) (dir : CmdbDir) : Prop :=
  ∀ x, (∀ content, (dir.ciDir x).core = some content → CleanCore env content) ∧
    ∀ e ∈ (dir.ciDir x).events env.floats, CleanEvent env e

theorem cleanStore_nil : CleanStore env [] := fun _ =>
  ⟨fun _ h => absurd h (Option.some_ne_none _).symm, fun _ h => absurd h List.not_mem_nil⟩

/-- **The items of a clean store** are clean. -/
theorem secretFree_getCi {dir : CmdbDir} (hdir : CleanStore env dir) {x : String}
    {ci : ConfigItem} (h : dir.getCi env x = .ok (some ci)) : ci.SecretFree env := by
  obtain ⟨content, core, ci₀, hcontent, hcore, hci₀, hfold⟩ := getCi_eq_ok h
  have hevents : ∀ e ∈ ((dir.ciDir x).events env.floats).insertionSort fun a b =>
      eventKey a ≤ eventKey b, CleanEvent env e := fun e he =>
    (hdir x).2 e ((List.mem_insertionSort _).mp he)
  refine foldlM_invariant_of_turns (G := fun _ e => CleanEvent env e)
    (fun ci e ci' hci he hstep => secretFree_step hci he hstep) _ ci₀ ci
    ((hdir x).1 content hcontent core x ci₀ hcore hci₀) ?_ hfold
  rintro l e m - hl -
  exact hevents e (hl ▸ List.mem_append_right _ List.mem_cons_self)

/-! ### Writes -/

/-- What a statement keeps: the store is clean. -/
abbrev KeepsClean (env : Env) {α : Type} (x : Effect Manager α) : Prop :=
  Keeps (fun s : Manager => CleanStore env s.dir) x

/-- The events of a directory after an append. -/
theorem mem_events_append {d : CiDir} {file : String} (hfile : endsWith file ".jsonl" = true)
    {text : List Char} (hdecode : decodeUtf8 (d.log file) = some text) {w : Dict} (hw : Stamped w)
    {e : Dict} (he : e ∈ (d.setLog file (withLine F (d.log file) w)).events F) :
    e ∈ d.events F ∨ e = rereadEvent F w := by
  obtain ⟨l, m, hold, hnew⟩ := events_setLog (F := F) d hfile (withLine F (d.log file) w)
  have hstamped : ∀ v ∈ [w], Stamped v := List.forall_mem_singleton.mpr hw
  have hlanded : contentEvents F (withLine F (d.log file) w) =
      eventsOfText F (finished text) ++ (landed text [w]).map (rereadEvent F) :=
    contentEvents_appends hstamped hdecode
  rw [hnew, hlanded, List.mem_append, List.mem_append, List.mem_append] at he
  rw [hold, contentEvents_of_decode hdecode, List.mem_append, List.mem_append, List.mem_append]
  rcases he with (he | he | he) | he
  · exact .inl (.inl (.inl he))
  · exact .inl (.inl (.inr (.inl he)))
  · obtain ⟨v, hv, rfl⟩ := List.mem_map.mp he
    rw [List.mem_singleton.mp (landed_subset hv)]
    exact .inr rfl
  · exact .inl (.inr he)

variable {ciId agent : String}

theorem keepsClean_append {action : String} {payload : Dict}
    (h : ∀ seq ts, CleanEvent env (rereadEvent env.floats
      (newEvent env seq agent action ts payload))) :
    KeepsClean env (append env ciId agent action payload) := by
  intro s hs
  unfold append
  rw [run_get_bind]
  refine run_lift_bind_rule (fun r : Except PyError Unit × Manager => CleanStore env r.2.dir)
    (fun _ => hs) fun text htext => ?_
  intro x
  show (∀ content, CiDir.core (CmdbDir.ciDir (CmdbDir.setLog s.dir ciId _ _) x) = some content →
      CleanCore env content) ∧
    ∀ e ∈ CiDir.events env.floats (CmdbDir.ciDir (CmdbDir.setLog s.dir ciId _ _) x),
      CleanEvent env e
  rw [CmdbDir.setLog, ciDir_set]
  split
  · rename_i hx
    subst hx
    refine ⟨(hs x).1, fun e he => ?_⟩
    rcases mem_events_append (endsWith_writerFile env agent) (readText_eq_ok.mp htext)
      stamped_newEvent he with he | rfl
    · exact (hs x).2 e he
    · exact h _ _
  · exact hs x

/-- A write whose action is another one sets no attribute. -/
theorem keepsClean_append_of_ne {action : String} {payload : Dict}
    (hpayload : (Assoc.keys payload).Nodup) (haction : "action" ∉ Assoc.keys payload)
    (hne : action ≠ "attribute") :
    KeepsClean env (append env ciId agent action payload) := by
  refine keepsClean_append fun seq ts h => absurd ?_ hne
  rw [ConfigItem.Action.of, action_newEvent hpayload haction] at h
  dsimp only at h
  split at h
  all_goals first | rfl | cases h

theorem keepsClean_setAttribute (key : String) (value : Json) :
    KeepsClean env (setAttribute env ciId agent key value) := by
  intro s hs
  refine run_lift_bind_rule (fun r : Except PyError Unit × Manager => CleanStore env r.2.dir)
    (fun _ => hs) fun u hvalid => ?_
  have hpayload : (Assoc.keys [("key", Json.str key), ("value", value)]).Nodup := by
    show ["key", "value"].Nodup
    decide
  obtain ⟨hkey, hvalue⟩ := secretFree_obj.mp (secretFree_of_validate hvalid) (key, value)
    List.mem_cons_self
  refine keepsClean_append (fun seq ts _ => ?_) s hs
  rw [Dict.get, Dict.get, get?_newEvent hpayload, get?_newEvent hpayload]
  exact ⟨hkey, secretFree_reread hvalue⟩

/-- The attributes of the core that `create_ci` writes. -/
theorem cleanCore_newCore {ciId ciType name description owner node : String} {attributes : Dict}
    {tags : List String} {createdAt : String} (h : SecretFree env (.obj attributes)) :
    CleanCore env (coreContent env.floats
      (newCore ciId ciType name description owner node attributes tags createdAt)) := by
  intro core x ci hcore hci
  rw [coreValue_written] at hcore
  cases hcore
  obtain ⟨l, hl, hattributes⟩ := attributes_ofCore hci
  have hkeys : (Assoc.keys (newCore ciId ciType name description owner node attributes tags
      createdAt)).Nodup := by
    show ["schema_version", "id", "ci_type", "name", "description", "owner", "node", "attributes",
      "tags", "created_at"].Nodup
    decide
  rw [Dict.getD, get?_rereadEvent hkeys] at hl
  have hfields := secretFree_obj.mp (secretFree_reread (F := env.floats) h)
  intro p hp
  rw [hattributes, ← pure_eq_ok.mp hl] at hp
  obtain ⟨q, hq, rfl⟩ := List.mem_map.mp hp
  exact hfields q hq

theorem cleanStore_publishCore {dir : CmdbDir} (h : CleanStore env dir) {content : Bytes}
    (hcontent : CleanCore env content) : CleanStore env (dir.publishCore ciId content) := by
  unfold CmdbDir.publishCore
  split
  · exact h
  · intro x
    rw [ciDir_set]
    split
    · rename_i hx
      subst hx
      refine ⟨fun c hc => ?_, (h x).2⟩
      cases hc
      exact hcontent
    · exact h x

theorem keepsClean_createCi {name ciType description owner node ciId : String} {attributes : Dict}
    {tags : List String} :
    KeepsClean env (createCi env name ciType description owner node attributes tags ciId) := by
  intro s hs
  refine run_lift_bind_rule
    (fun r : Except PyError (Option ConfigItem) × Manager => CleanStore env r.2.dir)
    (fun _ => hs) fun u hvalid => ?_
  exact cleanStore_publishCore hs (cleanCore_newCore (secretFree_of_validate hvalid))

theorem keepsClean_setStatus (status note : String) :
    KeepsClean env (setStatus env ciId agent status note) :=
  keepsClean_append_of_ne (by show ["status", "note"].Nodup; decide)
    (by show "action" ∉ ["status", "note"]; decide) (by decide)

theorem keepsClean_addRelationship (relType target authority : String) :
    KeepsClean env (addRelationship env ciId agent relType target authority) :=
  keepsClean_append_of_ne (by show ["rel_type", "target", "authority"].Nodup; decide)
    (by show "action" ∉ ["rel_type", "target", "authority"]; decide) (by decide)

theorem keepsClean_removeRelationship (relType target : String) :
    KeepsClean env (removeRelationship env ciId agent relType target) :=
  keepsClean_append_of_ne (by show ["rel_type", "target"].Nodup; decide)
    (by show "action" ∉ ["rel_type", "target"]; decide) (by decide)

theorem keepsClean_setMetadata (key value : String) :
    KeepsClean env (setMetadata env ciId agent key value) := by
  unfold setMetadata
  split
  · exact keepsClean_append_of_ne (by show ["key", "value"].Nodup; decide)
      (by show "action" ∉ ["key", "value"]; decide) (by decide)
  · exact keeps_raise _

theorem keepsClean_addTag (tag authority : String) :
    KeepsClean env (addTag env ciId agent tag authority) :=
  keepsClean_append_of_ne (by show ["tag", "authority"].Nodup; decide)
    (by show "action" ∉ ["tag", "authority"]; decide) (by decide)

theorem keepsClean_removeTag (tag authority : String) :
    KeepsClean env (removeTag env ciId agent tag authority) :=
  keepsClean_append_of_ne (by show ["tag", "authority"].Nodup; decide)
    (by show "action" ∉ ["tag", "authority"]; decide) (by decide)

theorem keepsClean_writeStatus (status : Option CIStatus) :
    KeepsClean env (writeStatus env agent ciId status) := by
  cases status with
  | none => exact keeps_pure ()
  | some status => exact keepsClean_setStatus _ _

theorem keepsClean_forEach {α : Type} {l : List α} {x : α → Effect Manager Unit}
    (h : ∀ a, KeepsClean env (x a)) : KeepsClean env (forEach l x) :=
  Keeps.foldlM (fun a _ _ => h a) ()

theorem keepsClean_onlyIf {b : Bool} {x : Effect Manager Unit} (h : KeepsClean env x) :
    KeepsClean env (onlyIf b x) := by
  unfold onlyIf
  split
  · exact h
  · exact keeps_pure ()

theorem keepsClean_createItem (c : CleanCI) (derived : Option CIStatus)
    (report : ReconcileReport) :
    KeepsClean env (createItem env agent ciId c derived report) := by
  refine keepsClean_createCi.bind fun _ => ?_
  refine (keepsClean_onlyIf (keepsClean_forEach fun tag => keepsClean_addTag _ _)).bind fun _ => ?_
  refine (keepsClean_writeStatus _).bind fun _ => ?_
  exact Keeps.foldlM (fun rel _ report =>
    (keepsClean_addRelationship _ _ _).bind fun _ => keeps_pure _) report

theorem keepsClean_applyChanges (c : CleanCI) (d : Changes) :
    KeepsClean env (applyChanges env agent ciId c d) := by
  unfold applyChanges
  refine (keepsClean_forEach fun p => keepsClean_setAttribute _ _).bind fun _ => ?_
  refine (keepsClean_writeStatus _).bind fun _ => ?_
  refine (keepsClean_forEach fun rel => keepsClean_addRelationship _ _ _).bind fun _ => ?_
  refine (keepsClean_forEach fun rel => keepsClean_removeRelationship _ _).bind fun _ => ?_
  refine (keepsClean_forEach fun p => keepsClean_setMetadata _ _).bind fun _ => ?_
  refine (keepsClean_forEach fun tag => keepsClean_addTag _ _).bind fun _ => ?_
  exact keepsClean_forEach fun tag => keepsClean_removeTag _ _

theorem keepsClean_reconcileItem (apply : Bool) (existing : Assoc String ConfigItem)
    (report : ReconcileReport) (p : String × CleanCI) :
    KeepsClean env (reconcileItem env agent apply existing report p) := by
  unfold reconcileItem
  refine (keeps_lift _).bind fun derived => ?_
  split
  · unfold reconcileNew
    dsimp only
    split
    · exact keepsClean_createItem _ _ _
    · exact keeps_pure _
  · unfold reconcileStored
    dsimp only
    split
    · exact keeps_pure _
    · exact (keepsClean_onlyIf (keepsClean_applyChanges _ _)).bind fun _ => keeps_pure _

theorem keepsClean_linkAlias (apply : Bool) (existing : Assoc String ConfigItem)
    (report : ReconcileReport) (m : String × String) :
    KeepsClean env (linkAlias env agent apply existing report m) := by
  unfold linkAlias
  split
  · exact keeps_pure _
  · exact (keepsClean_onlyIf (keepsClean_addRelationship _ _ _)).bind fun _ => keeps_pure _

theorem keepsClean_reconcile (discovered : List DiscoveredCI) (apply scanComplete : Bool) :
    KeepsClean env (reconcile env discovered agent apply scanComplete) := by
  unfold reconcile
  refine keeps_get.bind fun s => (keeps_lift _).bind fun v => ?_
  dsimp only
  split
  · refine (keeps_lift _).bind fun cis => (keeps_lift _).bind fun identified => ?_
    unfold reconcileIdentified
    refine Keeps.bind (Keeps.foldlM (fun p _ report => keepsClean_reconcileItem _ _ report p) _)
      fun report => ?_
    split
    · exact Keeps.foldlM (fun m _ report => keepsClean_linkAlias _ _ report m) _
    · exact keeps_pure _
  · exact keeps_pure _

/-! ### Sequences of calls -/

/-- A call of the manager or of `reconcile`. -/
inductive SecretCall where
  | createCi (name ciType description owner node : String) (attributes : Dict)
      (tags : List String) (ciId : String)
  | setAttribute (ciId agent key : String) (value : Json)
  | reconcile (discovered : List DiscoveredCI) (agent : String) (apply scanComplete : Bool)

namespace SecretCall

/-- The state that a call leaves, whether it returns or raises. -/
def next (env : Env) (s : Manager) : SecretCall → Manager
  | createCi name ciType description owner node attributes tags ciId =>
    ((Cmdb.createCi env name ciType description owner node attributes tags ciId).run s).2
  | setAttribute ciId agent key value =>
    ((Cmdb.setAttribute env ciId agent key value).run s).2
  | reconcile discovered agent apply scanComplete =>
    ((Cmdb.reconcile env discovered agent apply scanComplete).run s).2

theorem cleanStore_next {s : Manager} (hs : CleanStore env s.dir) (call : SecretCall) :
    CleanStore env (call.next env s).dir := by
  cases call with
  | createCi => exact keepsClean_createCi s hs
  | setAttribute => exact keepsClean_setAttribute _ _ s hs
  | reconcile => exact keepsClean_reconcile _ _ _ s hs

/-- The state after several calls on an empty store. -/
def runCalls (env : Env) (ticks : ℕ) (calls : List SecretCall) : Manager :=
  calls.foldl (next env) { ticks := ticks }

theorem cleanStore_foldl : ∀ {calls : List SecretCall} {s : Manager}, CleanStore env s.dir →
    CleanStore env (calls.foldl (next env) s).dir
  | [], _, hs => hs
  | call :: _, _, hs => by
    rw [List.foldl_cons]
    exact cleanStore_foldl (cleanStore_next hs call)

end SecretCall

/-- **Secrets do not leave through the store.** Whatever calls are made, the items of the store have
no attribute with a secret key at any depth; artifacts that differ under secret keys only are
sanitized alike; and sanitizing twice is sanitizing once. -/
theorem secrets_stay_out (env : Env) :
    (∀ ticks calls x ci, (SecretCall.runCalls env ticks calls).dir.getCi env x = .ok (some ci) →
      ci.SecretFree env) ∧
    (∀ v w, Agree env v w → sanitize env v = sanitize env w) ∧
    ∀ v, sanitize env (sanitize env v) = sanitize env v :=
  ⟨fun _ _ _ _ h => secretFree_getCi (SecretCall.cleanStore_foldl cleanStore_nil) h,
    fun _ _ h => sanitize_eq_of_agree h, sanitize_sanitize env⟩

/-- An item with a nested attribute, of which a secret one is refused. -/
def sampleCalls : List SecretCall :=
  [.createCi "web" "service" "" "" "" [("ports", .arr [.obj [("http", .int 80)]])] [] "ci-1",
    .setAttribute "ci-1" "lumina" "login" (.obj [("api_key", .str "k")]),
    .setAttribute "ci-1" "lumina" "zone" (.str "eu")]

/-- The core of the sample item. -/
def sampleCore : Dict :=
  newCore "ci-1" "service" "web" "" "" "" [("ports", .arr [.obj [("http", .int 80)]])] [] ""

/-- The event of its second attribute. -/
def zoneEvent : Dict :=
  newEvent unaryMachine 0 "lumina" "attribute" "a" [("key", .str "zone"), ("value", .str "eu")]

theorem getCi_sampleCalls :
    (SecretCall.runCalls unaryMachine 0 sampleCalls).dir.getCi unaryMachine "ci-1" =
      itemOfLines unaryMachine "ci-1" "lumina@box.jsonl" (.obj (rereadEvent zeroFloats sampleCore))
        [zoneEvent] := by
  have hcore : ((SecretCall.runCalls unaryMachine 0 sampleCalls).dir.ciDir "ci-1").core =
      some (coreContent zeroFloats sampleCore) := by decide +kernel
  have hlogs : ((SecretCall.runCalls unaryMachine 0 sampleCalls).dir.ciDir "ci-1").logs =
      [("lumina@box.jsonl", [zoneEvent].foldl (withLine zeroFloats) [])] := by decide +kernel
  refine getCi_of_lines hcore (coreValue_written _) hlogs (by decide +kernel) fun e he => ?_
  rw [List.mem_singleton.mp he]
  exact stamped_newEvent

/-- Calls of which one sets an attribute with a secret key, which is refused: the item has the two
other attributes in the end. -/
theorem secrets_stay_out_sample :
    ∃ ci, (SecretCall.runCalls unaryMachine 0 sampleCalls).dir.getCi unaryMachine "ci-1" =
      .ok (some ci) ∧ ci.attributes.length = 2 ∧ ci.SecretFree unaryMachine := by
  have hlength : ((SecretCall.runCalls unaryMachine 0 sampleCalls).dir.getCi unaryMachine
      "ci-1").map (Option.map fun ci => ci.attributes.length) = .ok (some 2) := by
    rw [getCi_sampleCalls]
    decide +kernel
  match hci : (SecretCall.runCalls unaryMachine 0 sampleCalls).dir.getCi unaryMachine "ci-1" with
  | .ok (some ci) =>
    rw [hci] at hlength
    exact ⟨ci, rfl, Option.some.inj (Except.ok.inj hlength), (secrets_stay_out _).1 _ _ _ _ hci⟩
  | .ok none =>
    rw [hci] at hlength
    cases hlength
  | .error e =>
    rw [hci] at hlength
    cases hlength

end SkCoord.Cmdb
