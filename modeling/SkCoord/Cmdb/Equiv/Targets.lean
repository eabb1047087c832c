import SkCoord.Cmdb.Equiv.Growth

/-!
# Targets of relationships

A store is `Attached` when every relationship of its items names one of them.  A call of `reconcile`
that returns has created the items that were not stored (`core_reconcileIdentified`), so it keeps the
store attached when the targets of its batch are `Present`.
-/

namespace SkCoord.Cmdb

open Python Python.Effect

variable {env : Env} {dir dir' : CmdbDir} {agent : String} {scanComplete : Bool}

/-- Every relationship of the listed items names one of them. -/
def Attached (env : Env) (dir : CmdbDir) : Prop :=
  ∀ cis, dir.listCis env = .ok cis → ∀ ci ∈ cis, ∀ r ∈ ci.relationships, r.target ∈ cis.map (·.id)

/-! ### Listed items -/

theorem mem_listCis_iff {cis : List ConfigItem} (h : dir.listCis env = .ok cis) (ci : ConfigItem) :
    ci ∈ cis ↔ ∃ x, dir.getCi env x = .ok (some ci) := by
  constructor
  · intro hmem
    obtain ⟨rs, hrs, h⟩ := bind_eq_ok.mp h
    rw [← pure_eq_ok.mp h] at hmem
    obtain ⟨r, hr, hci⟩ := List.mem_filterMap.mp hmem
    obtain ⟨x, -, hx⟩ := (mem_mapM_iff hrs r).mp hr
    exact ⟨x, hx.trans (congrArg _ hci)⟩
  · rintro ⟨x, hx⟩
    obtain ⟨content, core, ci₀, hcontent, -, -, -⟩ := getCi_eq_ok hx
    obtain ⟨r, hr, hmem⟩ := getCi_of_listCis h hcontent
    exact hmem ci (Except.ok.inj (hr.symm.trans hx))

theorem id_foldAction {ci ci' : ConfigItem} {e : Dict} {a : ConfigItem.Action}
    (h : ci.foldAction env e a = .ok ci') : ci'.id = ci.id := by
  cases a with
  | status => rw [← pure_eq_ok.mp h, ConfigItem.foldStatus]
  | unrelate => rw [← pure_eq_ok.mp h, ConfigItem.foldUnrelate]
  | other => rw [← pure_eq_ok.mp h]
  | setAttribute =>
    unfold ConfigItem.foldAction ConfigItem.foldAttribute at h
    dsimp only at h
    split at h
    · obtain ⟨-, -, h⟩ := bind_eq_ok.mp h
      rw [← pure_eq_ok.mp h]
    · rw [← pure_eq_ok.mp h]
  | relate =>
    obtain ⟨rel, -, h⟩ := bind_eq_ok.mp h
    rw [← pure_eq_ok.mp h]
    split <;> rfl
  | metadata =>
    obtain ⟨-, -, h⟩ := bind_eq_ok.mp h
    split at h
    · rw [← pure_eq_ok.mp h]
      unfold ConfigItem.setMetadata
      split <;> rfl
    · rw [← pure_eq_ok.mp h]
  | tag =>
    rw [← pure_eq_ok.mp h]
    unfold ConfigItem.foldTag
    split <;> rfl
  | untag =>
    rw [← pure_eq_ok.mp h]
    unfold ConfigItem.foldUntag
    dsimp only
    split
    · split <;> rfl
    · rfl

/-- The fold keeps the identifier of the core. -/
theorem id_getCi {x : String} {ci : ConfigItem} (h : dir.getCi env x = .ok (some ci)) :
    ∃ content core ci₀, (dir.ciDir x).core = some content ∧
      CmdbDir.coreValue env content = some core ∧ ConfigItem.ofCore env x core = .ok ci₀ ∧
      ci.id = ci₀.id := by
  obtain ⟨content, core, ci₀, hcontent, hcore, hci₀, hfold⟩ := getCi_eq_ok h
  refine ⟨content, core, ci₀, hcontent, hcore, hci₀, ?_⟩
  refine foldlM_invariant (I := fun c => c.id = ci₀.id) (fun c e c' hc hstep => ?_) _ ci₀ ci rfl
    hfold
  obtain ⟨c₁, hfold, htouch⟩ := bind_eq_ok.mp hstep
  rw [← pure_eq_ok.mp htouch]
  exact (id_foldAction hfold).trans hc

theorem id_ofCore {x id : String} {core : Dict} {ci : ConfigItem}
    (hid : Assoc.get? core "id" = some (.str id))
    (h : ConfigItem.ofCore env x (.obj core) = .ok ci) : ci.id = id := by
  obtain ⟨version, -, h⟩ := bind_eq_ok.mp h
  obtain ⟨idValue, hidValue, h⟩ := bind_eq_ok.mp h
  rw [coreId, hid] at hidValue
  cases pure_eq_ok.mp hidValue
  obtain ⟨attributes, -, h⟩ := bind_eq_ok.mp h
  obtain ⟨tags, -, h⟩ := bind_eq_ok.mp h
  obtain ⟨idText, hidText, h⟩ := bind_eq_ok.mp h
  cases hidText
  obtain ⟨ciType, -, h⟩ := bind_eq_ok.mp h
  obtain ⟨name, -, h⟩ := bind_eq_ok.mp h
  obtain ⟨description, -, h⟩ := bind_eq_ok.mp h
  obtain ⟨owner, -, h⟩ := bind_eq_ok.mp h
  obtain ⟨node, -, h⟩ := bind_eq_ok.mp h
  obtain ⟨createdAt, -, h⟩ := bind_eq_ok.mp h
  rw [← pure_eq_ok.mp h]

/-- The identifier of a core that was written. -/
theorem coreValue_coreContent {core : Dict} (hkeys : (Assoc.keys core).Nodup) {id : String}
    (hid : Assoc.get? core "id" = some (.str id)) :
    ∃ core', CmdbDir.coreValue env (coreContent env.floats core) = some (.obj core') ∧
      Assoc.get? core' "id" = some (.str id) := by
  refine ⟨rereadEvent env.floats core, coreValue_written core, ?_⟩
  rw [get?_rereadEvent hkeys, hid]
  rfl

/-! ### Items that stay, and items that are created -/

section

variable {Born : String → Bytes → Prop} {Written : String → Prop}
  {Adds : String → String → String → Prop}

/-- The cores of a store that has grown are kept. -/
theorem core_of_grownStore (h : GrownStore env agent Born Written Adds dir dir') {x : String}
    {content : Bytes} (hcore : (dir.ciDir x).core = some content) :
    (dir'.ciDir x).core = some content := by
  rcases (h x).core with hsame | ⟨hnone, -⟩
  · rw [hsame, hcore]
  · rw [hcore] at hnone
    cases hnone

/-- A core that has a value gives a listed item. -/
theorem exists_of_core {cis : List ConfigItem} (hcis : dir.listCis env = .ok cis) {x : String}
    {content : Bytes} {core : Json} (hcontent : (dir.ciDir x).core = some content)
    (hvalue : CmdbDir.coreValue env content = some core) :
    ∃ ci ∈ cis, ∃ ci₀, ConfigItem.ofCore env x core = .ok ci₀ ∧ ci.id = ci₀.id := by
  obtain ⟨r, hr, hmem⟩ := getCi_of_listCis hcis hcontent
  obtain ⟨ci, rfl⟩ := exists_of_getCi hcontent hvalue hr
  obtain ⟨content', core', ci₀, hcontent', hvalue', hci₀, hid⟩ := id_getCi hr
  rw [hcontent] at hcontent'
  cases hcontent'
  rw [hvalue] at hvalue'
  cases hvalue'
  exact ⟨ci, hmem ci rfl, ci₀, hci₀, hid⟩

/-- A listed item stays one. -/
theorem mem_ids_of_grownStore (h : GrownStore env agent Born Written Adds dir dir')
    {cis cis' : List ConfigItem} (hcis : dir.listCis env = .ok cis)
    (hcis' : dir'.listCis env = .ok cis') {t : String} (ht : t ∈ cis.map (·.id)) :
    t ∈ cis'.map (·.id) := by
  obtain ⟨ci, hci, rfl⟩ := List.mem_map.mp ht
  obtain ⟨x, hx⟩ := (mem_listCis_iff hcis ci).mp hci
  obtain ⟨content, core, ci₀, hcontent, hvalue, hci₀, hid⟩ := id_getCi hx
  obtain ⟨ci', hci', ci₁, hci₁, hid'⟩ :=
    exists_of_core hcis' (core_of_grownStore h hcontent) hvalue
  cases hci₀.symm.trans hci₁
  exact List.mem_map.mpr ⟨ci', hci', hid'.trans hid.symm⟩

end

/-- What a call keeps of a core: it is there. -/
abbrev KeepsCore (x : String) {α : Type} (y : Effect Manager α) : Prop :=
  Keeps (fun s : Manager => (s.dir.ciDir x).core.isSome = true) y

/-- A statement that lets every store grow keeps its cores. -/
theorem keepsCore_of_grows {x : String} {α : Type} {y : Effect Manager α}
    (h : ∀ dir, Grows env agent (fun _ _ => True) (fun _ => True) (fun _ _ _ => True) dir y) :
    KeepsCore x y := by
  intro s hs
  obtain ⟨content, hcontent⟩ := Option.isSome_iff_exists.mp hs
  rw [core_of_grownStore (h s.dir s fun x => Grown.refl _) hcontent]
  rfl

variable {existing : Assoc String ConfigItem}

theorem core_createCi {name ciType description owner node ciId : String} {attributes : Dict}
    {tags : List String} (hne : ciId ≠ "") {r : Option ConfigItem} {s s' : Manager}
    (h : (createCi env name ciType description owner node attributes tags ciId).run s =
      (.ok r, s')) : (s'.dir.ciDir ciId).core.isSome = true := by
  unfold createCi at h
  rw [if_neg hne] at h
  obtain ⟨_, -, h⟩ := run_lift_bind_eq_ok.mp h
  obtain ⟨createdAt, s1, -, h⟩ := run_bind_eq_ok.mp h
  obtain ⟨_, s2, hpublish, h⟩ := run_bind_eq_ok.mp h
  cases hpublish
  rw [run_get_bind] at h
  rw [← (Prod.mk.inj h).2]
  show (CmdbDir.ciDir (CmdbDir.publishCore s1.dir ciId _) ciId).core.isSome = true
  unfold CmdbDir.publishCore
  split
  · assumption
  · rw [ciDir_set, if_pos rfl]
    rfl

/-- **A new item** has a core after its turn. -/
theorem core_reconcileItem {p : String × CleanCI} (hne : p.1 ≠ "")
    (hnone : Assoc.get? existing p.1 = none) {report r : ReconcileReport} {s s' : Manager}
    (h : (reconcileItem env agent true existing report p).run s = (.ok r, s')) :
    (s'.dir.ciDir p.1).core.isSome = true := by
  unfold reconcileItem at h
  obtain ⟨derived, -, h⟩ := run_lift_bind_eq_ok.mp h
  rw [hnone] at h
  dsimp only at h
  rw [reconcileNew, if_pos rfl] at h
  obtain ⟨ci, s1, hcreate, htail⟩ := run_bind_eq_ok.mp h
  have hkeep := keepsCore_of_grows (fun dir => @grows_createItem_tail env agent _ _ _ dir p.1 p.2
    derived { report with created := report.created ++ [p.1] } (fun _ => trivial)
    fun _ _ => trivial) s1
    (core_createCi hne hcreate)
  rwa [htail] at hkeep

/-- **The new items of a call** that returns have cores. -/
theorem core_loop : ∀ {byId : Assoc String CleanCI},
    (∀ p ∈ byId, Assoc.get? existing p.1 = none → p.1 ≠ "") →
    ∀ {report r : ReconcileReport} {s s' : Manager},
      (byId.foldlM (reconcileItem env agent true existing) report).run s = (.ok r, s') →
        ∀ p ∈ byId, Assoc.get? existing p.1 = none → (s'.dir.ciDir p.1).core.isSome = true
  | [], _, _, _, _, _, _ => fun p hp => (List.not_mem_nil hp).elim
  | q :: byId, hne, report, r, s, s', h => by
    rw [List.foldlM_cons] at h
    obtain ⟨report', s1, h1, h2⟩ := run_bind_eq_ok.mp h
    refine List.forall_mem_cons.mpr ⟨fun hnone => ?_,
      core_loop (fun p hp => hne p (List.mem_cons_of_mem _ hp)) h2⟩
    have hkeep : KeepsCore q.1 (byId.foldlM (reconcileItem env agent true existing) report') :=
      keepsCore_of_grows fun dir => Keeps.foldlM (fun p hp report => grows_reconcileItem
        (fun hnew => ⟨hne p (List.mem_cons_of_mem _ hp) hnew, fun _ _ => trivial⟩)
        (fun _ => trivial)
        (fun _ _ => trivial) report) report'
    have hcore := hkeep s1 (core_reconcileItem (hne q List.mem_cons_self hnone) hnone h1)
    rwa [h2] at hcore

theorem core_reconcileIdentified {identified : Identified}
    (hne : ∀ p ∈ identified.byId, Assoc.get? existing p.1 = none → p.1 ≠ "")
    {report r : ReconcileReport} {s s' : Manager}
    (h : (reconcileIdentified env agent true scanComplete existing identified report).run s =
      (.ok r, s')) {p : String × CleanCI} (hp : p ∈ identified.byId)
    (hnone : Assoc.get? existing p.1 = none) : (s'.dir.ciDir p.1).core.isSome = true := by
  unfold reconcileIdentified at h
  obtain ⟨report₁, s1, h1, h2⟩ := run_bind_eq_ok.mp h
  have hcore := core_loop hne h1 p hp hnone
  cases scanComplete with
  | false =>
    cases h2
    exact hcore
  | true =>
    rw [if_pos rfl] at h2
    have hkeep : KeepsCore p.1 ((sortedPairs identified.migrations).foldlM
        (linkAlias env agent true existing)
        { report₁ with orphans := orphansOf existing identified }) :=
      keepsCore_of_grows fun dir => Keeps.foldlM (fun m _ report =>
        grows_linkAlias (fun _ => ⟨trivial, trivial⟩) report) _
    have hcore := hkeep s1 hcore
    rwa [h2] at hcore

/-! ### Calls -/

/-- The target is the identifier of a listed item, or of one that the call creates. -/
def Present (dir : CmdbDir) (cis : List ConfigItem) (s : Identified) (target : String) : Prop :=
  target ∈ cis.map (·.id) ∨ target ∈ Assoc.keys s.byId ∧ (dir.ciDir target).core = none

/-- The item of a directory is listed, or is one that the call creates. -/
def Shown (env : Env) (dir : CmdbDir) (cis : List ConfigItem) (s : Identified) (x : String) : Prop :=
  (∃ ci, dir.getCi env x = .ok (some ci)) ∨
    Creates (byIdentifier cis) s x ∧ (dir.ciDir x).core = none

/-- A batch on a store: every target that the call asks for is present, and no other relationship
appears without its target: those that the events of a created item leave have one, and so have
those of a log that the call writes when its unfinished line, which the first event spoils, is left
out. -/
structure Anchored (env : Env) (dir : CmdbDir) (agent : String) (scanComplete : Bool)
    (cis : List ConfigItem) (s : Identified) : Prop where
  targets : ∀ x rt t, Shown env dir cis s x → t ≠ "" →
    NewEdge scanComplete (byIdentifier cis) s x rt t → Present dir cis s t
  leftovers : ∀ x rt t, Creates (byIdentifier cis) s x → (dir.ciDir x).core = none → t ≠ "" →
    edgeIn rt t ((dir.ciDir x).events env.floats) = true → Present dir cis s t
  finished : ∀ x rt t, Shown env dir cis s x → t ≠ "" →
    Writes env scanComplete (byIdentifier cis) s x →
    edgeIn rt t (((dir.ciDir x).cut (writerFile env agent)).events env.floats) = true →
      Present dir cis s t

/-- **Targets that are present** are listed after a call that returns. -/
theorem mem_ids_of_present {discovered : List DiscoveredCI} {s s' : Manager}
    {report : ReconcileReport} {items : List CleanCI} {findings : List RedactionFinding}
    {cis cis' : List ConfigItem} {identified : Identified}
    (hvalid : validatedDiscovery env s.dir discovered = .ok (items, [], findings))
    (hcis : s.dir.listCis env = .ok cis)
    (hidentify : identify env (byIdentifier cis) items = .ok identified)
    (hrun : (reconcile env discovered agent true scanComplete).run s = (.ok report, s'))
    (hgrown : GrownStore env agent
      (fun x content => Creates (byIdentifier cis) identified x ∧ CoreOf env x content)
      (Writes env scanComplete (byIdentifier cis) identified)
      (NewEdge scanComplete (byIdentifier cis) identified) s.dir s'.dir)
    (hcis' : s'.dir.listCis env = .ok cis') {t : String} (ht : Present s.dir cis identified t) :
    t ∈ cis'.map (·.id) := by
  rcases ht with hstored | ⟨hkey, hcore⟩
  · exact mem_ids_of_grownStore hgrown hcis hcis' hstored
  · cases hget : Assoc.get? (byIdentifier cis) t with
    | some ci =>
      obtain ⟨hmem, hid⟩ := get?_byIdentifier hget
      exact mem_ids_of_grownStore hgrown hcis hcis' (List.mem_map.mpr ⟨ci, hmem, hid⟩)
    | none =>
      -- the call has created the item
      obtain ⟨p, hp, rfl⟩ := List.mem_map.mp hkey
      obtain ⟨cis₁, identified₁, hcis₁, hidentify₁, hloops⟩ := run_reconcile_of_valid hvalid hrun
      cases hcis.symm.trans hcis₁
      cases hidentify.symm.trans hidentify₁
      have hsome := core_reconcileIdentified
        (fun q hq hnew => key_ne_of_identify hidentify q hq hnew) hloops hp hget
      rcases (hgrown p.1).core with hsame | ⟨-, content, hcontent, -, core, hkeys, hid, hof⟩
      · rw [hsame, hcore] at hsome
        cases hsome
      · obtain ⟨core', hvalue, hid'⟩ := @coreValue_coreContent env core hkeys p.1 hid
        rw [← hof] at hvalue
        obtain ⟨ci, hci, ci₀, hci₀, heq⟩ := exists_of_core hcis' hcontent hvalue
        exact List.mem_map.mpr ⟨ci, hci, heq.trans (id_ofCore hid' hci₀)⟩

/-- **A call leaves no relationship without its target** when every target that its batch asks for
is present, or stored by the call, and no relationship of a log that is not yet visible leads
elsewhere. -/
theorem attached_of_anchored (env : Env) (discovered : List DiscoveredCI) (agent : String)
    (scanComplete : Bool) (s s' : Manager) (report : ReconcileReport)
    {items : List CleanCI} {findings : List RedactionFinding} {cis : List ConfigItem}
    {identified : Identified} (hattached : Attached env s.dir)
    (hvalid : validatedDiscovery env s.dir discovered = .ok (items, [], findings))
    (hcis : s.dir.listCis env = .ok cis)
    (hidentify : identify env (byIdentifier cis) items = .ok identified)
    (hanchored : Anchored env s.dir agent scanComplete cis identified)
    (hrun : (reconcile env discovered agent true scanComplete).run s = (.ok report, s')) :
    Attached env s'.dir := by
  have hgrown : GrownStore env agent
      (fun x content => Creates (byIdentifier cis) identified x ∧ CoreOf env x content)
      (Writes env scanComplete (byIdentifier cis) identified)
      (NewEdge scanComplete (byIdentifier cis) identified) s.dir s'.dir := by
    rcases grownStore_reconcile env discovered agent true scanComplete s with
      hsame | ⟨items₁, findings₁, cis₁, identified₁, hvalid₁, hcis₁, hidentify₁, hgrown⟩
    · rw [hrun] at hsame
      obtain rfl : s' = s := hsame
      exact fun x => Grown.refl _
    · cases hvalid.symm.trans hvalid₁
      cases hcis.symm.trans hcis₁
      cases hidentify.symm.trans hidentify₁
      rwa [hrun] at hgrown
  intro cis' hcis' ci' hci' r hr
  obtain ⟨x, hx⟩ := (mem_listCis_iff hcis' ci').mp hci'
  have htarget := target_ne_of_getCi hx r hr
  have hedge : hasEdge r.relType r.target ci' = true :=
    List.any_eq_true.mpr ⟨r, hr, links_iff.mpr ⟨rfl, rfl⟩⟩
  rw [hasEdge_getCi htarget hx] at hedge
  have hitem := item_of_grownStore hgrown hcis hx
  have hshown : Shown env s.dir cis identified x := by
    rcases hitem with ⟨ci, -, hget⟩ | ⟨hcore, -, hcreates, -⟩
    · exact .inl ⟨ci, hget⟩
    · exact .inr ⟨hcreates, hcore⟩
  rcases edge_of_grownStore hgrown hedge with hold | ⟨hwrites, hcut⟩ | hnew
  · rcases hitem with ⟨ci, hci, hget⟩ | ⟨hcore, -, hcreates, -⟩
    · -- the relationship was there before the call, and so was its target
      rw [← hasEdge_getCi htarget hget] at hold
      obtain ⟨r₀, hr₀, hlinks⟩ := List.any_eq_true.mp hold
      have hstored := hattached cis hcis ci hci r₀ hr₀
      rw [(links_iff.mp hlinks).2] at hstored
      exact mem_ids_of_grownStore hgrown hcis hcis' hstored
    · exact mem_ids_of_present hvalid hcis hidentify hrun hgrown hcis'
        (hanchored.leftovers x r.relType r.target hcreates hcore htarget hold)
  · exact mem_ids_of_present hvalid hcis hidentify hrun hgrown hcis'
      (hanchored.finished x r.relType r.target hshown htarget hwrites hcut)
  · exact mem_ids_of_present hvalid hcis hidentify hrun hgrown hcis'
      (hanchored.targets x r.relType r.target hshown htarget hnew)

/-! ### A host under another identifier -/

/-- A store with a host that is stored under another letter than its name, and a service. -/
def renamedHost : Manager :=
  storeOf [("ci-host-o", canonicalCore "ci-host-o" "host" "" "n"),
    ("ci-service-s", canonicalCore "ci-service-s" "service" "" "s")]

/-- The reconciliation of the host with the service, which runs on a host. -/
def renamedReconciled (host : String) : Except PyError ReconcileReport × Manager :=
  (reconcile unaryMachine [canonicalItem "host" "n" [],
    canonicalItem "service" "s" [("runs_on", host)]] "x" true true).run renamedHost

/-- The items of the store, as its cores say. -/
theorem listCis_renamedHost : renamedHost.dir.listCis unaryMachine = itemsOfCores unaryMachine
    [("ci-host-o", canonicalCore "ci-host-o" "host" "" "n"),
      ("ci-service-s", canonicalCore "ci-service-s" "service" "" "s")] := by
  refine listCis_storeOf rfl fun p hp => ?_
  rcases List.mem_pair.mp hp with rfl | rfl
  · exact wellFormed_canonicalCore _ _ _ _
  · exact wellFormed_canonicalCore _ _ _ _

/-- The content of a core without a name. -/
def namelessContent (ciId ciType letter : String) : Bytes :=
  encodeUtf8 ((Json.obj (canonicalCore ciId ciType "" letter)).dumps zeroFloats .compact)

theorem coreValue_namelessContent (ciId ciType letter : String) :
    CmdbDir.coreValue unaryMachine (namelessContent ciId ciType letter) =
      some (.obj (canonicalCore ciId ciType "" letter)) := by
  rw [CmdbDir.coreValue, namelessContent, decodeUtf8_encodeUtf8, Option.bind_some]
  exact Json.loads_dumps _ _ (wellFormed_canonicalCore _ _ _ _)

/-- The event that runs the service on the host. -/
def runsOnEvent : Dict :=
  newEvent unaryMachine 0 "x" "relate" ""
    [("rel_type", .str "runs_on"), ("target", .str "ci-host-n"), ("authority", .str "")]

/-- The host is left as it was. -/
theorem renamed_host : (renamedReconciled "ci-host-n").2.dir.getCi unaryMachine "ci-host-o" =
    (ConfigItem.ofCore unaryMachine "ci-host-o"
      (.obj (canonicalCore "ci-host-o" "host" "" "n"))).map some := by
  have hdir : ((renamedReconciled "ci-host-n").2.dir.ciDir "ci-host-o").core =
      some (namelessContent "ci-host-o" "host" "n") ∧
      ((renamedReconciled "ci-host-n").2.dir.ciDir "ci-host-o").logs = [] := by
    unfold renamedReconciled reconcile validatedDiscovery
    rw [run_get_bind, listCis_renamedHost]
    decide +kernel
  exact getCi_of_core hdir.1 (coreValue_namelessContent _ _ _) hdir.2

/-- The service has one event. -/
theorem renamed_service :
    (renamedReconciled "ci-host-n").2.dir.getCi unaryMachine "ci-service-s" =
      itemOfLines unaryMachine "ci-service-s" "x@box.jsonl"
        (.obj (canonicalCore "ci-service-s" "service" "" "s")) [runsOnEvent] := by
  have hdir : ((renamedReconciled "ci-host-n").2.dir.ciDir "ci-service-s").core =
      some (namelessContent "ci-service-s" "service" "s") ∧
      ((renamedReconciled "ci-host-n").2.dir.ciDir "ci-service-s").logs =
        [("x@box.jsonl", [runsOnEvent].foldl (withLine zeroFloats) [])] := by
    unfold renamedReconciled reconcile validatedDiscovery
    rw [run_get_bind, listCis_renamedHost]
    decide +kernel
  refine getCi_of_lines hdir.1 (coreValue_namelessContent _ _ _) hdir.2 (by decide +kernel)
    fun e he => ?_
  rw [List.mem_singleton.mp he]
  exact stamped_newEvent

/-- What the reconciliation returns and leaves, when the service names the host by its name. -/
theorem renamed_run : ((renamedReconciled "ci-host-n").1.toOption.map
      ReconcileReport.validationFailures,
    ((renamedReconciled "ci-host-n").2.dir.listCis unaryMachine).toOption.map fun cis =>
      cis.map fun ci => (ci.id, ci.relationships.map (·.target))) =
    (some [], some [("ci-host-o", []), ("ci-service-s", ["ci-host-n"])]) := by
  have hstate : (renamedReconciled "ci-host-n").1.toOption.map
      ReconcileReport.validationFailures = some [] ∧
      (renamedReconciled "ci-host-n").2.dir.ciNames = ["ci-host-o", "ci-service-s"] := by
    unfold renamedReconciled reconcile validatedDiscovery
    rw [run_get_bind, listCis_renamedHost]
    decide +kernel
  rw [hstate.1, CmdbDir.listCis, hstate.2, List.mapM_cons, List.mapM_cons, List.mapM_nil,
    renamed_host, renamed_service]
  decide +kernel

/-- A store without events is attached. -/
theorem attached_storeOf (cores : List (String × Dict)) : Attached env (storeOf cores).dir := by
  intro cis hcis ci hci r hr
  obtain ⟨x, hx⟩ := (mem_listCis_iff hcis ci).mp hci
  have hedge : hasEdge r.relType r.target ci = true :=
    List.any_eq_true.mpr ⟨r, hr, links_iff.mpr ⟨rfl, rfl⟩⟩
  rw [hasEdge_getCi (target_ne_of_getCi hx r hr) hx, CiDir.events, logs_storeOf] at hedge
  cases hedge

/-- The service runs on a host that nobody has: the batch names the host by the identifier that it
would like, and the host is stored under the one it had. -/
theorem renamed_host_dangles : Attached unaryMachine renamedHost.dir ∧
    (∃ r, renamedReconciled "ci-host-n" = (.ok r, (renamedReconciled "ci-host-n").2) ∧
      r.validationFailures = []) ∧
    ¬Attached unaryMachine (renamedReconciled "ci-host-n").2.dir := by
  obtain ⟨hreport, hlisted⟩ := Prod.mk.inj renamed_run
  obtain ⟨r, hr, hvalid⟩ := Option.map_eq_some_iff.mp hreport
  obtain ⟨cis, hcis, hitems⟩ := Option.map_eq_some_iff.mp hlisted
  refine ⟨attached_storeOf _, ⟨r, eq_mk_of_fst_eq (toOption_eq_some.mp hr), hvalid⟩,
    fun hattached => ?_⟩
  have hids : cis.map (·.id) = ["ci-host-o", "ci-service-s"] := by
    have := congrArg (List.map Prod.fst) hitems
    rwa [List.map_map] at this
  have hservice : ("ci-service-s", ["ci-host-n"]) ∈
      cis.map fun ci => (ci.id, ci.relationships.map (·.target)) := by
    rw [hitems]
    exact List.mem_cons_of_mem _ List.mem_cons_self
  obtain ⟨ci, hci, heq⟩ := List.mem_map.mp hservice
  obtain ⟨rel, hrel, htarget⟩ : ∃ rel ∈ ci.relationships, rel.target = "ci-host-n" := by
    refine List.mem_map.mp ?_
    rw [(Prod.mk.inj heq).2]
    exact List.mem_singleton.mpr rfl
  have hmem := hattached cis (toOption_eq_some.mp hcis) ci hci rel hrel
  rw [hids, htarget] at hmem
  exact absurd hmem (by decide)

/-- The batch in which the service names the host by the identifier under which it is stored. -/
def storedBatch : List DiscoveredCI :=
  [canonicalItem "host" "n" [], canonicalItem "service" "s" [("runs_on", "ci-host-o")]]

/-- What its reconciliation finds on the store. -/
def storedIdentified : Except PyError (List ValidationFailure × List ConfigItem × Identified) := do
  let (items, failures, _) ← validatedDiscovery unaryMachine renamedHost.dir storedBatch
  let cis ← renamedHost.dir.listCis unaryMachine
  let identified ← identify unaryMachine (byIdentifier cis) items
  pure (failures, cis, identified)

/-- With the identifier that the host has, the same batch leaves the store attached. -/
theorem attached_of_anchored_renamed :
    Attached unaryMachine (renamedReconciled "ci-host-o").2.dir := by
  -- the run and its identification are evaluated once
  have heval : ((renamedReconciled "ci-host-o").1.isOk, storedIdentified.toOption.map fun p =>
      (p.1.isEmpty && p.2.2.migrations.isEmpty, p.2.1.map (·.id),
        p.2.2.byId.flatMap fun q => q.2.item.relationships)) =
      (true, some (true, ["ci-host-o", "ci-service-s"], [("runs_on", "ci-host-o")])) := by
    unfold renamedReconciled storedIdentified reconcile validatedDiscovery
    rw [run_get_bind, listCis_renamedHost]
    decide +kernel
  obtain ⟨hrun, hfound⟩ := Prod.mk.inj heval
  obtain ⟨r, hrun⟩ := isOk_iff.mp hrun
  obtain ⟨⟨failures, cis, identified⟩, hfound, hparts⟩ := Option.map_eq_some_iff.mp hfound
  obtain ⟨hempty, hparts⟩ := Prod.mk.inj hparts
  obtain ⟨hids, hrels⟩ := Prod.mk.inj hparts
  rw [Bool.and_eq_true, List.isEmpty_iff, List.isEmpty_iff] at hempty
  obtain ⟨hfailures, hmigrations⟩ := hempty
  obtain ⟨⟨items, failures', findings⟩, hvalid, hfound⟩ :=
    bind_eq_ok.mp (toOption_eq_some.mp hfound)
  obtain ⟨cis', hcis, hfound⟩ := bind_eq_ok.mp hfound
  obtain ⟨identified', hidentify, hfound⟩ := bind_eq_ok.mp hfound
  cases pure_eq_ok.mp hfound
  subst hfailures
  -- the only edge that the call asks for goes to the stored host
  have htargets : ∀ {x rt t}, NewEdge true (byIdentifier cis) identified x rt t →
      t = "ci-host-o" := by
    rintro x rt t (⟨-, -, hm, -⟩ | ⟨c, hc, hrel⟩)
    · rw [hmigrations] at hm
      cases hm
    · have hmem : (rt, t) ∈ identified.byId.flatMap fun q => q.2.item.relationships :=
        List.mem_flatMap.mpr ⟨_, hc, hrel⟩
      rw [hrels] at hmem
      exact (Prod.mk.inj (List.mem_singleton.mp hmem)).2
  refine attached_of_anchored unaryMachine storedBatch "x" true renamedHost _ r
    (attached_storeOf _) hvalid hcis hidentify ⟨?_, ?_, ?_⟩ (eq_mk_of_fst_eq hrun)
  · intro x rt t _ _ hedge
    rw [htargets hedge, Present, hids]
    exact .inl List.mem_cons_self
  · intro x rt t _ _ _ hedge
    rw [CiDir.events, renamedHost, logs_storeOf] at hedge
    cases hedge
  · intro x rt t _ _ _ hedge
    have hnone := edge_of_cut (endsWith_writerFile unaryMachine "x") (fun e he => ?_) hedge
    · rw [CiDir.events, renamedHost, logs_storeOf] at hnone
      cases hnone
    · rw [CiDir.unfinishedEvents, CiDir.log, renamedHost, logs_storeOf] at he
      cases he

end SkCoord.Cmdb
