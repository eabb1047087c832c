import SkCoord.Cmdb.Reconcile
import SkCoord.Python.DryRun

/-!
# The dry run is the plan

`reconcile` reports and writes in the same loops.  The loops without their writes return the same
report, up to the flag `applied`: `plans_reconcileIdentified`, and from it `dry_run_is_plan`.
-/

namespace SkCoord.Cmdb

open Python Python.Effect

variable {env : Env} {agent : String} {existing : Assoc String ConfigItem}

/-- The report of a call that does not apply. -/
def ReconcileReport.planned (r : ReconcileReport) : ReconcileReport := { r with applied := false }

/-- The relationships of a new item enter the report one by one. -/
theorem returns_addRelationships {ciId authority : String} :
    ∀ {rels : List (String × String)} {report r : ReconcileReport} {s s' : Manager},
      (addRelationships env agent ciId authority report rels).run s = (.ok r, s') →
      r = { report with relationships := report.relationships ++ rels.map (addedEdge ciId) }
  | [], report, r, s, s', h => by
    unfold addRelationships at h
    rw [List.foldlM_nil, run_pure] at h
    cases h
    rw [List.map_nil, List.append_nil]
  | rel :: rels, report, r, s, s', h => by
    unfold addRelationships at h
    rw [List.foldlM_cons] at h
    obtain ⟨report', u, h1, h2⟩ := run_bind_eq_ok.mp h
    obtain ⟨-, v, -, h1⟩ := run_bind_eq_ok.mp h1
    rw [run_pure] at h1
    cases h1
    rw [returns_addRelationships h2, List.map_cons, List.append_assoc]
    rfl

/-- What the writes for a new item return. -/
theorem returns_createItem {ciId : String} {c : CleanCI} {derived : Option CIStatus}
    {report r : ReconcileReport} {s s' : Manager}
    (h : (createItem env agent ciId c derived report).run s = (.ok r, s')) :
    r = { report with
      relationships := report.relationships ++ c.item.relationships.map (addedEdge ciId) } := by
  unfold createItem at h
  obtain ⟨-, s1, -, h⟩ := run_bind_eq_ok.mp h
  obtain ⟨-, s2, -, h⟩ := run_bind_eq_ok.mp h
  obtain ⟨-, s3, -, h⟩ := run_bind_eq_ok.mp h
  exact returns_addRelationships h

theorem silent_reconcileItem (report : ReconcileReport) (p : String × CleanCI) :
    Silent (reconcileItem env agent false existing report p) := by
  intro s
  unfold reconcileItem
  refine (keeps_lift _).bind fun derived => ?_
  cases Assoc.get? existing p.1 with
  | none => exact keeps_pure _
  | some current =>
    dsimp only
    unfold reconcileStored
    dsimp only
    split
    · exact keeps_pure _
    · exact (keeps_pure ()).bind fun _ => keeps_pure _

/-- **One item**: the report is made before the writes. -/
theorem plans_reconcileItem (report : ReconcileReport) (p : String × CleanCI) :
    Plans ReconcileReport.planned (reconcileItem env agent true existing report p)
      (reconcileItem env agent false existing report.planned p) where
  silent := silent_reconcileItem _ _
  returns := by
    intro s r s' h t
    unfold reconcileItem at h ⊢
    obtain ⟨derived, hderived, h⟩ := run_lift_bind_eq_ok.mp h
    rw [hderived, run_bind_of_ok (run_lift _ t)]
    cases hget : Assoc.get? existing p.1 with
    | none =>
      rw [hget] at h
      rw [returns_createItem h]
      rfl
    | some current =>
      rw [hget] at h
      dsimp only at h ⊢
      unfold reconcileStored at h ⊢
      dsimp only at h ⊢
      split at h
      · rename_i hempty
        rw [run_pure] at h
        cases h
        rw [if_pos hempty]
        rfl
      · rename_i hchanges
        obtain ⟨-, s1, -, h⟩ := run_bind_eq_ok.mp h
        rw [run_pure] at h
        cases h
        rw [if_neg hchanges]
        rfl

theorem silent_linkAlias (report : ReconcileReport) (m : String × String) :
    Silent (linkAlias env agent false existing report m) := by
  intro s
  unfold linkAlias
  split
  · exact keeps_pure _
  · exact (keeps_pure ()).bind fun _ => keeps_pure _

/-- **One migration**. -/
theorem plans_linkAlias (report : ReconcileReport) (m : String × String) :
    Plans ReconcileReport.planned (linkAlias env agent true existing report m)
      (linkAlias env agent false existing report.planned m) where
  silent := silent_linkAlias _ _
  returns := by
    intro s r s' h t
    unfold linkAlias at h ⊢
    split at h
    · rename_i hlinked
      rw [run_pure] at h
      cases h
      rw [if_pos hlinked]
      rfl
    · rename_i hlinked
      obtain ⟨-, s1, -, h⟩ := run_bind_eq_ok.mp h
      rw [run_pure] at h
      cases h
      rw [if_neg hlinked]
      rfl

theorem plans_reconcileIdentified (scanComplete : Bool) (identified : Identified)
    (report : ReconcileReport) :
    Plans ReconcileReport.planned
      (reconcileIdentified env agent true scanComplete existing identified report)
      (reconcileIdentified env agent false scanComplete existing identified report.planned) := by
  have hlink : ∀ (l : List (String × String)) (r : ReconcileReport),
      Silent (l.foldlM (linkAlias env agent false existing) r) :=
    fun l r s => Keeps.foldlM (fun m _ b => silent_linkAlias b m s) r
  unfold reconcileIdentified
  refine Plans.bind (Plans.foldlM plans_reconcileItem silent_reconcileItem _ report)
    (fun r => ?_) fun r s => ?_
  · cases scanComplete with
    | false => exact Plans.pure ReconcileReport.planned r
    | true => exact Plans.foldlM plans_linkAlias silent_linkAlias _ _
  · cases scanComplete with
    | false => exact keeps_pure r
    | true => exact hlink _ _ s

/-- A report without validation failures or with them: the loops run in the first case. -/
theorem run_reconcile (discovered : List DiscoveredCI) (apply scanComplete : Bool) (s : Manager) :
    (reconcile env discovered agent apply scanComplete).run s =
      match validatedDiscovery env s.dir discovered with
      | .error e => (.error e, s)
      | .ok (items, failures, findings) =>
        if failures.isEmpty then
          match s.dir.listCis env with
          | .error e => (.error e, s)
          | .ok cis =>
            match identify env (byIdentifier cis) items with
            | .error e => (.error e, s)
            | .ok identified =>
              (reconcileIdentified env agent apply scanComplete (byIdentifier cis) identified
                { applied := apply, validationFailures := failures,
                  secretRedactionFindings := findings }).run s
        else (.ok { validationFailures := failures, secretRedactionFindings := findings }, s) := by
  unfold reconcile
  rw [run_get_bind, run_lift_bind]
  cases validatedDiscovery env s.dir discovered with
  | error e => rfl
  | ok v =>
    obtain ⟨items, failures, findings⟩ := v
    dsimp only
    by_cases hfailures : failures.isEmpty = true
    · rw [if_pos hfailures, if_pos hfailures, run_lift_bind]
      cases s.dir.listCis env with
      | error e => rfl
      | ok cis =>
        dsimp only
        rw [run_lift_bind]
        cases identify env (byIdentifier cis) items with
        | error e => rfl
        | ok identified => rfl
    · rw [if_neg hfailures, if_neg hfailures]
      rfl

/-- A call that returns on a batch without failures ran through both loops. -/
theorem run_reconcile_of_valid {discovered : List DiscoveredCI} {apply scanComplete : Bool}
    {s s' : Manager} {report : ReconcileReport} {items : List CleanCI}
    {findings : List RedactionFinding}
    (hvalid : validatedDiscovery env s.dir discovered = .ok (items, [], findings))
    (hrun : (reconcile env discovered agent apply scanComplete).run s = (.ok report, s')) :
    ∃ cis identified, s.dir.listCis env = .ok cis ∧
      identify env (byIdentifier cis) items = .ok identified ∧
      (reconcileIdentified env agent apply scanComplete (byIdentifier cis) identified
        { applied := apply, secretRedactionFindings := findings }).run s = (.ok report, s') := by
  rw [run_reconcile, hvalid] at hrun
  cases hcis : s.dir.listCis env with
  | error e =>
    rw [hcis] at hrun
    cases hrun
  | ok cis =>
    rw [hcis] at hrun
    cases hidentify : identify env (byIdentifier cis) items with
    | error e =>
      dsimp only at hrun
      rw [hidentify] at hrun
      cases hrun
    | ok identified =>
      dsimp only at hrun
      rw [hidentify] at hrun
      exact ⟨cis, identified, rfl, hidentify, hrun⟩

/-- **The dry run is the plan**: it leaves the store as it is, and its report is that of the call
that applies, whenever that one returns. -/
theorem dry_run_is_plan (env : Env) (discovered : List DiscoveredCI) (agent : String)
    (scanComplete : Bool) (s : Manager) :
    ((reconcile env discovered agent false scanComplete).run s).2 = s ∧
      ∀ r s', (reconcile env discovered agent true scanComplete).run s = (.ok r, s') →
        ((reconcile env discovered agent false scanComplete).run s).1 =
          .ok { r with applied := false } := by
  rw [run_reconcile, run_reconcile]
  cases validatedDiscovery env s.dir discovered with
  | error e => exact ⟨rfl, nofun⟩
  | ok v =>
    obtain ⟨items, failures, findings⟩ := v
    dsimp only
    by_cases hfailures : failures.isEmpty = true
    · rw [if_pos hfailures, if_pos hfailures]
      cases s.dir.listCis env with
      | error e => exact ⟨rfl, nofun⟩
      | ok cis =>
        dsimp only
        cases identify env (byIdentifier cis) items with
        | error e => exact ⟨rfl, nofun⟩
        | ok identified =>
          dsimp only
          have hplans := @plans_reconcileIdentified env agent (byIdentifier cis) scanComplete
            identified
            { applied := true, validationFailures := failures, secretRedactionFindings := findings }
          exact ⟨hplans.silent s s rfl, fun r s' h => hplans.returns h s⟩
    · rw [if_neg hfailures, if_neg hfailures]
      refine ⟨rfl, fun r s' h => ?_⟩
      cases h
      rfl

/-! ### A run -/

/-- A store whose directories hold cores without logs. -/
def storeOf (cores : List (String × Dict)) : Manager where
  dir := cores.map fun p =>
    (p.1, {
      core := some (encodeUtf8 ((Json.obj p.2).dumps zeroFloats .compact))
      logs := []
      nodup := List.nodup_nil })

theorem logs_storeOf {cores : List (String × Dict)} (x : String) :
    ((storeOf cores).dir.ciDir x).logs = [] := by
  rw [CmdbDir.ciDir]
  cases hget : Assoc.get? (storeOf cores).dir x with
  | none => rfl
  | some d =>
    obtain ⟨p, -, hp⟩ := List.mem_map.mp (Assoc.mem_of_get? hget)
    rw [Option.getD_some, ← (Prod.mk.inj hp).2]

/-- `get_ci` of a core without events is what the core says. -/
theorem getCi_of_noEvents {dir : CmdbDir} {ciId : String} {content : Bytes} {core : Json}
    (hcore : (dir.ciDir ciId).core = some content)
    (hvalue : CmdbDir.coreValue env content = some core)
    (hevents : dir.readEvents env ciId = .ok []) :
    dir.getCi env ciId = (ConfigItem.ofCore env ciId core).map some := by
  unfold CmdbDir.getCi
  rw [hcore]
  dsimp only
  rw [hvalue]
  dsimp only
  rw [hevents]
  cases ConfigItem.ofCore env ciId core <;> rfl

/-- `get_ci` of a core without a log is what the core says. -/
theorem getCi_of_core {dir : CmdbDir} {ciId : String} {content : Bytes} {core : Json}
    (hcore : (dir.ciDir ciId).core = some content)
    (hvalue : CmdbDir.coreValue env content = some core) (hlogs : (dir.ciDir ciId).logs = []) :
    dir.getCi env ciId = (ConfigItem.ofCore env ciId core).map some := by
  refine getCi_of_noEvents hcore hvalue ?_
  rw [CmdbDir.readEvents, CiDir.sortedLogs, hlogs]
  rfl

/-- An item of cores without logs. -/
def itemOfCores (env : Env) (cores : List (String × Dict)) (ciId : String) :
    Except PyError (Option ConfigItem) :=
  match Assoc.get? cores ciId with
  | none => pure none
  | some core => (ConfigItem.ofCore env ciId (.obj core)).map some

/-- The items of cores without logs. -/
def itemsOfCores (env : Env) (cores : List (String × Dict)) : Except PyError (List ConfigItem) := do
  let cis ← ((cores.map Prod.fst).insertionSort fun x y => x ≤ y).mapM (itemOfCores env cores)
  pure (cis.filterMap id)

section

variable {cores : List (String × Dict)} (hfloats : env.floats = zeroFloats)
  (hcores : ∀ p ∈ cores, (Json.obj p.2).WellFormed zeroFloats)

include hfloats hcores

theorem getCi_storeOf (ciId : String) :
    (storeOf cores).dir.getCi env ciId = itemOfCores env cores ciId := by
  have hdir : (storeOf cores).dir.ciDir ciId =
      ((Assoc.get? cores ciId).map fun core : Dict => ({ core := some (encodeUtf8
        ((Json.obj core).dumps zeroFloats .compact)) } : CiDir)).getD {} := by
    rw [CmdbDir.ciDir, storeOf, Assoc.get?_map fun core : Dict => ({ core := some (encodeUtf8
      ((Json.obj core).dumps zeroFloats .compact)) } : CiDir)]
  unfold itemOfCores
  cases hget : Assoc.get? cores ciId with
  | none =>
    rw [hget] at hdir
    unfold CmdbDir.getCi
    rw [hdir]
    rfl
  | some core =>
    rw [hget] at hdir
    refine getCi_of_core (congrArg CiDir.core hdir) ?_ (logs_storeOf _)
    rw [CmdbDir.coreValue, decodeUtf8_encodeUtf8, Option.bind_some, hfloats,
      Json.loads_dumps _ _ (hcores _ (Assoc.mem_of_get? hget))]

theorem listCis_storeOf : (storeOf cores).dir.listCis env = itemsOfCores env cores := by
  have hnames : (storeOf cores).dir.ciNames =
      (cores.map Prod.fst).insertionSort fun x y => x ≤ y := by
    rw [CmdbDir.ciNames, storeOf, List.filter_eq_self.mpr, List.map_map]
    · rfl
    · intro p hp
      obtain ⟨q, -, rfl⟩ := List.mem_map.mp hp
      rfl
  have hget : (storeOf cores).dir.getCi env = itemOfCores env cores :=
    funext (getCi_storeOf hfloats hcores)
  rw [CmdbDir.listCis, hnames, hget]
  rfl

end

/-- An item by its canonical name and its relationships. -/
def canonicalItem (ciType letter : String) (relationships : List (String × String)) : DiscoveredCI :=
  { ciType := ciType, name := "", source := "declared", canonicalName := letter,
    relationships := relationships }

/-- A core that has what such an item asks for. -/
def canonicalCore (ciId ciType name letter : String) : Dict :=
  [("id", .str ciId), ("ci_type", .str ciType), ("name", .str name),
    ("attributes", .obj [("canonical_name", .str letter), ("aliases", .arr [.str letter]),
      ("source_authority", .str "declared"), ("observation_schema_version", .int 1)])]

theorem wellFormed_canonicalCore (ciId ciType name letter : String) :
    (Json.obj (canonicalCore ciId ciType name letter)).WellFormed zeroFloats := by
  simp [canonicalCore, Json.WellFormed, Json.FieldsWellFormed, Json.ElemsWellFormed, Assoc.keys]

/-- A host by its name, its aliases and its tags. -/
def sampleHost (name : String) (aliases tags : List String) : DiscoveredCI :=
  { ciType := "host", name := name, source := "declared", aliases := aliases, tags := tags }

/-- A store that knows the host `a`. -/
def knownHost : Manager :=
  storeOf [("ci-host-a", canonicalCore "ci-host-a" "host" "a" "a")]

/-- The reconciliation of the host with a tag that is new. -/
def taggedReconciled : Except PyError ReconcileReport × Manager :=
  (reconcile unaryMachine [sampleHost "a" [] ["t"]] "x" true true).run knownHost

/-- A known host that gets a tag: the call that applies writes it, and the dry run reports the same
update. -/
theorem dry_run_is_plan_tagged : ∃ r, taggedReconciled = (.ok r, taggedReconciled.2) ∧
    r.updated = [("ci-host-a", ["tag:+t"])] ∧
    ((reconcile unaryMachine [sampleHost "a" [] ["t"]] "x" false true).run knownHost).1 =
      .ok { r with applied := false } := by
  have hlist : knownHost.dir.listCis unaryMachine = itemsOfCores unaryMachine
      [("ci-host-a", canonicalCore "ci-host-a" "host" "a" "a")] :=
    listCis_storeOf rfl fun p hp => by
      rw [List.mem_singleton.mp hp]
      exact wellFormed_canonicalCore _ _ _ _
  have hreport : taggedReconciled.1.toOption.map ReconcileReport.updated =
      some [("ci-host-a", ["tag:+t"])] := by
    unfold taggedReconciled reconcile validatedDiscovery
    rw [run_get_bind, hlist]
    decide +kernel
  obtain ⟨r, hr, hupdated⟩ := Option.map_eq_some_iff.mp hreport
  have hrun : taggedReconciled = (.ok r, taggedReconciled.2) :=
    eq_mk_of_fst_eq (toOption_eq_some.mp hr)
  have hplan := (dry_run_is_plan unaryMachine _ "x" true knownHost).2 r _ hrun
  exact ⟨r, hrun, hupdated, hplan⟩

end SkCoord.Cmdb
