import SkCoord.Cmdb.Equiv.DryRun

/-!
# What becomes of the items of a batch

The loop over the items runs over a dictionary that is keyed by the identifiers under which the items
are stored.  Every entry of it is filed in the report (`filed_loop`), and every item has an entry
exactly when no two items have the same identifier (`accounts_iff_distinct`).
-/

namespace SkCoord.Cmdb

open Python Python.Effect

variable {env : Env} {agent : String} {apply : Bool} {existing : Assoc String ConfigItem}

/-! ### Filing one item -/

/-- The report says what an item asks of the store under an identifier. -/
def Filed (env : Env) (existing : Assoc String ConfigItem) (report : ReconcileReport)
    (p : String × CleanCI) : Prop :=
  ∃ derived, observedStatus p.2 = .ok derived ∧
    match Assoc.get? existing p.1 with
    | none => p.1 ∈ report.created ∧
        ∀ rel ∈ p.2.item.relationships, addedEdge p.1 rel ∈ report.relationships
    | some current =>
      let d := p.2.changes env derived current
      if d.isEmpty then p.1 ∈ report.unchanged
      else (∃ entry, Assoc.get? report.updated p.1 = some entry ∧ d.entry <+: entry) ∧
        ∀ edge ∈ d.edges p.1, edge ∈ report.relationships

/-- What a report says about an identifier is said by another one. -/
structure SaysAlso (ciId : String) (report report' : ReconcileReport) : Prop where
  created : report.created ⊆ report'.created
  unchanged : report.unchanged ⊆ report'.unchanged
  relationships : report.relationships ⊆ report'.relationships
  updated : ∀ entry, Assoc.get? report.updated ciId = some entry →
    ∃ entry', Assoc.get? report'.updated ciId = some entry' ∧ entry <+: entry'

theorem Filed.mono {report report' : ReconcileReport} {p : String × CleanCI}
    (h : Filed env existing report p) (halso : SaysAlso p.1 report report') :
    Filed env existing report' p := by
  obtain ⟨derived, hderived, h⟩ := h
  refine ⟨derived, hderived, ?_⟩
  cases hget : Assoc.get? existing p.1 with
  | none =>
    rw [hget] at h
    exact ⟨halso.created h.1, fun rel hrel => halso.relationships (h.2 rel hrel)⟩
  | some current =>
    rw [hget] at h
    dsimp only at h ⊢
    by_cases hempty : (p.2.changes env derived current).isEmpty = true
    · rw [if_pos hempty] at h ⊢
      exact halso.unchanged h
    · rw [if_neg hempty] at h ⊢
      obtain ⟨⟨entry, hentry, hprefix⟩, hedges⟩ := h
      obtain ⟨entry', hentry', hprefix'⟩ := halso.updated entry hentry
      exact ⟨⟨entry', hentry', hprefix.trans hprefix'⟩,
        fun edge hedge => halso.relationships (hedges edge hedge)⟩

/-- What the branch for a new item returns. -/
theorem returns_reconcileNew {ciId : String} {c : CleanCI} {derived : Option CIStatus}
    {report r : ReconcileReport} {s s' : Manager}
    (h : (reconcileNew env agent apply report ciId c derived).run s = (.ok r, s')) :
    r = { report with
      created := report.created ++ [ciId]
      relationships := report.relationships ++ c.item.relationships.map (addedEdge ciId) } := by
  unfold reconcileNew at h
  cases apply with
  | true => exact returns_createItem h
  | false =>
    cases h
    rfl

/-- What the branch for a stored item returns. -/
theorem returns_reconcileStored {ciId : String} {c : CleanCI} {derived : Option CIStatus}
    {current : ConfigItem} {report r : ReconcileReport} {s s' : Manager}
    (h : (reconcileStored env agent apply report ciId c derived current).run s = (.ok r, s')) :
    r = if (c.changes env derived current).isEmpty then
        { report with unchanged := report.unchanged ++ [ciId] }
      else { report with
        updated := Assoc.set report.updated ciId (c.changes env derived current).entry
        relationships := report.relationships ++ (c.changes env derived current).edges ciId } := by
  unfold reconcileStored at h
  dsimp only at h
  split at h
  · rename_i hempty
    cases h
    rw [if_pos hempty]
  · rename_i hempty
    obtain ⟨-, s1, -, h⟩ := run_bind_eq_ok.mp h
    cases h
    rw [if_neg hempty]

/-- **One item** is filed in its turn. -/
theorem filed_reconcileItem {report r : ReconcileReport} {p : String × CleanCI} {s s' : Manager}
    (h : (reconcileItem env agent apply existing report p).run s = (.ok r, s')) :
    Filed env existing r p := by
  unfold reconcileItem at h
  obtain ⟨derived, hderived, h⟩ := run_lift_bind_eq_ok.mp h
  refine ⟨derived, hderived, ?_⟩
  cases hget : Assoc.get? existing p.1 with
  | none =>
    rw [hget] at h
    rw [returns_reconcileNew h]
    exact ⟨List.mem_append_right _ (List.mem_singleton.mpr rfl),
      fun rel hrel => List.mem_append_right _ (List.mem_map_of_mem hrel)⟩
  | some current =>
    rw [hget] at h
    rw [returns_reconcileStored h]
    dsimp only
    by_cases hempty : (p.2.changes env derived current).isEmpty = true
    · rw [if_pos hempty, if_pos hempty]
      exact List.mem_append_right _ (List.mem_singleton.mpr rfl)
    · rw [if_neg hempty, if_neg hempty]
      exact ⟨⟨_, Assoc.get?_set_self _ _ _, List.prefix_rfl⟩,
        fun edge hedge => List.mem_append_right _ hedge⟩

/-- The turn of another item leaves what was said. -/
theorem saysAlso_reconcileItem {report r : ReconcileReport} {p : String × CleanCI} {s s' : Manager}
    {ciId : String} (hne : ciId ≠ p.1)
    (h : (reconcileItem env agent apply existing report p).run s = (.ok r, s')) :
    SaysAlso ciId report r := by
  unfold reconcileItem at h
  obtain ⟨derived, hderived, h⟩ := run_lift_bind_eq_ok.mp h
  cases hget : Assoc.get? existing p.1 with
  | none =>
    rw [hget] at h
    rw [returns_reconcileNew h]
    exact ⟨List.subset_append_left _ _, List.Subset.refl _, List.subset_append_left _ _,
      fun entry hentry => ⟨entry, hentry, List.prefix_rfl⟩⟩
  | some current =>
    rw [hget] at h
    rw [returns_reconcileStored h]
    split
    · exact ⟨List.Subset.refl _, List.subset_append_left _ _, List.Subset.refl _,
        fun entry hentry => ⟨entry, hentry, List.prefix_rfl⟩⟩
    · refine ⟨List.Subset.refl _, List.Subset.refl _, List.subset_append_left _ _,
        fun entry hentry => ⟨entry, ?_, List.prefix_rfl⟩⟩
      rw [Assoc.get?_set_ne _ _ hne]
      exact hentry

/-- So does a migration: it adds to the entry of the duplicate. -/
theorem saysAlso_linkAlias {report r : ReconcileReport} {m : String × String} {s s' : Manager}
    {ciId : String} (h : (linkAlias env agent apply existing report m).run s = (.ok r, s')) :
    SaysAlso ciId report r := by
  unfold linkAlias at h
  split at h
  · cases h
    exact ⟨List.Subset.refl _, List.Subset.refl _, List.Subset.refl _,
      fun entry hentry => ⟨entry, hentry, List.prefix_rfl⟩⟩
  · obtain ⟨-, s1, -, h⟩ := run_bind_eq_ok.mp h
    cases h
    refine ⟨List.Subset.refl _, List.Subset.refl _, List.subset_append_left _ _,
      fun entry hentry => ?_⟩
    by_cases hm : ciId = m.1
    · subst hm
      rw [hentry]
      exact ⟨_, Assoc.get?_set_self _ _ _, List.prefix_append _ _⟩
    · exact ⟨entry, by rw [Assoc.get?_set_ne _ _ hm]; exact hentry, List.prefix_rfl⟩

/-! ### The loops -/

/-- What was filed stays filed in a loop whose turns leave it. -/
theorem filed_foldlM {α : Type} {step : ReconcileReport → α → Effect Manager ReconcileReport}
    {p : String × CleanCI} : ∀ {l : List α},
      (∀ a ∈ l, ∀ {report r s s'}, (step report a).run s = (.ok r, s') → SaysAlso p.1 report r) →
      ∀ {report r : ReconcileReport} {s s' : Manager}, Filed env existing report p →
        (l.foldlM step report).run s = (.ok r, s') → Filed env existing r p
  | [], _, _, _, _, _, hfiled, h => by
    cases h
    exact hfiled
  | a :: l, hstep, report, r, s, s', hfiled, h => by
    rw [List.foldlM_cons] at h
    obtain ⟨report', s1, h1, h2⟩ := run_bind_eq_ok.mp h
    exact filed_foldlM (fun b hb => hstep b (List.mem_cons_of_mem _ hb))
      (hfiled.mono (hstep a List.mem_cons_self h1)) h2

/-- **The loop over the items** files every entry of the dictionary. -/
theorem filed_loop : ∀ {byId : Assoc String CleanCI}, (Assoc.keys byId).Nodup →
    ∀ {report r : ReconcileReport} {s s' : Manager},
      (byId.foldlM (reconcileItem env agent apply existing) report).run s = (.ok r, s') →
      ∀ p ∈ byId, Filed env existing r p
  | [], _, _, _, _, _, _ => fun p hp => (List.not_mem_nil hp).elim
  | q :: byId, hnodup, report, r, s, s', h => by
    obtain ⟨hq, hnodup⟩ := List.nodup_cons.mp hnodup
    rw [List.foldlM_cons] at h
    obtain ⟨report', s1, h1, h2⟩ := run_bind_eq_ok.mp h
    refine List.forall_mem_cons.mpr ⟨?_, filed_loop hnodup h2⟩
    refine filed_foldlM (fun p hp report r s s' h => ?_) (filed_reconcileItem h1) h2
    have hmem : p.1 ∈ Assoc.keys byId := List.mem_map_of_mem hp
    exact saysAlso_reconcileItem (fun heq => hq (heq.symm ▸ hmem)) h

theorem filed_reconcileIdentified {scanComplete : Bool} {identified : Identified}
    (hnodup : (Assoc.keys identified.byId).Nodup) {report r : ReconcileReport} {s s' : Manager}
    (h : (reconcileIdentified env agent apply scanComplete existing identified report).run s =
      (.ok r, s')) : ∀ p ∈ identified.byId, Filed env existing r p := by
  intro p hp
  unfold reconcileIdentified at h
  obtain ⟨report', s1, h1, h2⟩ := run_bind_eq_ok.mp h
  have hfiled := filed_loop hnodup h1 p hp
  cases scanComplete with
  | false =>
    cases h2
    exact hfiled
  | true =>
    -- the orphans are no part of what was filed
    have horphans : Filed env existing { report' with orphans := orphansOf existing identified } p :=
      hfiled.mono ⟨List.Subset.refl _, List.Subset.refl _, List.Subset.refl _,
        fun entry hentry => ⟨entry, hentry, List.prefix_rfl⟩⟩
    exact filed_foldlM (fun m _ report r s s' h => saysAlso_linkAlias h) horphans h2

/-! ### Identifiers -/

/-- The identifier under which an item is stored. -/
def resolvedId (env : Env) (existing : Assoc String ConfigItem) (c : CleanCI) :
    Except PyError String :=
  (resolve env existing c.item).map Prod.fst

/-- The first loop binds the items to their identifiers, one after the other. -/
theorem identify_byId : ∀ {items : List CleanCI} {s t : Identified},
    items.foldlM (identifyItem env existing) s = .ok t →
      ∃ ids : List String, items.map (resolvedId env existing) = ids.map .ok ∧
        t.byId = (ids.zip items).foldl (fun d p => Assoc.set d p.1 p.2) s.byId
  | [], s, t, h => by
    cases h
    exact ⟨[], rfl, rfl⟩
  | c :: items, s, t, h => by
    rw [List.foldlM_cons] at h
    obtain ⟨s1, h1, h2⟩ := bind_eq_ok.mp h
    obtain ⟨r, hr, h1⟩ := bind_eq_ok.mp h1
    cases h1
    obtain ⟨ids, hids, hbyId⟩ := identify_byId h2
    refine ⟨r.1 :: ids, ?_, hbyId⟩
    rw [List.map_cons, List.map_cons, hids, resolvedId, hr]
    rfl

/-- Every item of the batch has an entry of its own, and every entry is in the report. -/
def AccountsForAll (env : Env) (existing : Assoc String ConfigItem) (items : List CleanCI)
    (report : ReconcileReport) : Prop :=
  ∃ identified, identify env existing items = .ok identified ∧
    (identified.byId.map Prod.snd).Perm items ∧
    ∀ p ∈ identified.byId, Filed env existing report p

/-- **Every item of a batch is accounted for** exactly when no two of them are stored under one
identifier: of two that are, the dictionary of the call keeps the later one. -/
theorem accounts_iff_distinct (env : Env) (discovered : List DiscoveredCI) (agent : String)
    (apply scanComplete : Bool) (s s' : Manager) (report : ReconcileReport)
    {items : List CleanCI} {findings : List RedactionFinding} {cis : List ConfigItem}
    (hvalid : validatedDiscovery env s.dir discovered = .ok (items, [], findings))
    (hcis : s.dir.listCis env = .ok cis)
    (hrun : (reconcile env discovered agent apply scanComplete).run s = (.ok report, s')) :
    AccountsForAll env (byIdentifier cis) items report ↔
      (items.map (resolvedId env (byIdentifier cis))).Nodup := by
  obtain ⟨cis', identified, hcis', hidentify, hloops⟩ := run_reconcile_of_valid hvalid hrun
  obtain rfl := Except.ok.inj (hcis.symm.trans hcis')
  obtain ⟨ids, hids, hbyId⟩ := identify_byId hidentify
  have hlength : ids.length = items.length := by
    have := congrArg List.length hids
    rw [List.length_map, List.length_map] at this
    exact this.symm
  have hfst : Assoc.keys (ids.zip items) = ids := List.map_fst_zip hlength.le
  have hsnd : (ids.zip items).map Prod.snd = items := List.map_snd_zip hlength.ge
  have hperm := Assoc.perm_foldl_set_iff (ids.zip items)
  rw [hfst, hsnd] at hperm
  have hnodup : (items.map (resolvedId env (byIdentifier cis))).Nodup ↔ ids.Nodup := by
    rw [hids]
    exact List.nodup_map_iff fun _ _ h => Except.ok.inj h
  have hkeys : (Assoc.keys identified.byId).Nodup := by
    rw [hbyId]
    exact Assoc.nodup_keys_foldl_set _ List.nodup_nil
  rw [hnodup, ← hperm]
  constructor
  · rintro ⟨identified', hidentify', hitems, -⟩
    obtain rfl := Except.ok.inj (hidentify.symm.trans hidentify')
    rwa [hbyId] at hitems
  · intro hitems
    refine ⟨identified, hidentify, ?_, filed_reconcileIdentified hkeys hloops⟩
    rw [hbyId]
    exact hitems

/-! ### Two hosts under one identifier -/

/-- A store with a host that has two aliases. -/
def aliasedHost : Manager :=
  storeOf [("ci-host-o", [("id", .str "ci-host-o"), ("ci_type", .str "host"),
    ("attributes", .obj [("aliases", .arr [.str "a", .str "b"])])])]

/-- The plan for the hosts `a` and `b`. -/
def aliasesReconciled : Except PyError ReconcileReport × Manager :=
  (reconcile unaryMachine [sampleHost "a" [] [], sampleHost "b" [] []] "x" false true).run aliasedHost

/-- The second of two hosts replaces the first: both are recognized as one stored host, and the
report speaks of one of them. -/
theorem two_aliases_collapse : ∃ items cis report,
    validatedDiscovery unaryMachine aliasedHost.dir [sampleHost "a" [] [], sampleHost "b" [] []] =
      .ok (items, [], []) ∧
    items.map (fun c => c.item.name) = ["a", "b"] ∧
    aliasedHost.dir.listCis unaryMachine = .ok cis ∧
    aliasesReconciled = (.ok report, aliasesReconciled.2) ∧
    report.created = [] ∧ report.unchanged = [] ∧ Assoc.keys report.updated = ["ci-host-o"] ∧
    ¬AccountsForAll unaryMachine (byIdentifier cis) items report := by
  have hvalid : (validatedDiscovery unaryMachine aliasedHost.dir
      [sampleHost "a" [] [], sampleHost "b" [] []]).toOption.map (fun v =>
        (v.1.map fun c => c.item.name, v.2)) = some (["a", "b"], [], []) := by decide +kernel
  have hreport : aliasesReconciled.1.toOption.map (fun r =>
      (r.created, r.unchanged, Assoc.keys r.updated)) = some ([], [], ["ci-host-o"]) := by
    decide +kernel
  have hentries : ((validatedDiscovery unaryMachine aliasedHost.dir
      [sampleHost "a" [] [], sampleHost "b" [] []]).toOption.bind fun v =>
        (aliasedHost.dir.listCis unaryMachine).toOption.bind fun cis =>
          (identify unaryMachine (byIdentifier cis) v.1).toOption.map fun t => t.byId.length) =
      some 1 := by decide +kernel
  obtain ⟨⟨items, failures, findings⟩, hv, hparts⟩ := Option.map_eq_some_iff.mp hvalid
  obtain ⟨hnames, hnone⟩ := Prod.mk.inj hparts
  cases hnone
  rw [hv, Option.bind_some] at hentries
  obtain ⟨cis, hcis, hone⟩ := Option.bind_eq_some_iff.mp hentries
  obtain ⟨report, hr, hparts⟩ := Option.map_eq_some_iff.mp hreport
  obtain ⟨hcreated, hparts⟩ := Prod.mk.inj hparts
  obtain ⟨hunchanged, hupdated⟩ := Prod.mk.inj hparts
  refine ⟨items, cis, report, toOption_eq_some.mp hv, hnames, toOption_eq_some.mp hcis,
    eq_mk_of_fst_eq (toOption_eq_some.mp hr), hcreated, hunchanged, hupdated, ?_⟩
  rintro ⟨identified, hidentify, hperm, -⟩
  rw [hidentify] at hone
  have hentry : identified.byId.length = 1 := Option.some.inj hone
  have hitems : items.length = 2 := by
    have hlength := congrArg List.length hnames
    rwa [List.length_map] at hlength
  have hlength := hperm.length_eq
  rw [List.length_map, hentry, hitems] at hlength
  cases hlength

/-- A host and one that is new are accounted for. -/
theorem accounts_iff_distinct_new : ∃ items cis report,
    items.map (fun c => c.item.name) = ["a", "c"] ∧
    (AccountsForAll unaryMachine (byIdentifier cis) items report ↔
      (items.map (resolvedId unaryMachine (byIdentifier cis))).Nodup) := by
  have hvalid : (validatedDiscovery unaryMachine aliasedHost.dir
      [sampleHost "a" [] [], sampleHost "c" [] []]).toOption.map (fun v =>
        (v.1.map fun c => c.item.name, v.2)) = some (["a", "c"], [], []) := by decide +kernel
  have hcis : (aliasedHost.dir.listCis unaryMachine).isOk = true := by decide +kernel
  have hrun : ((reconcile unaryMachine [sampleHost "a" [] [], sampleHost "c" [] []] "x" false
      true).run aliasedHost).1.isOk = true := by decide +kernel
  obtain ⟨⟨items, failures, findings⟩, hv, hparts⟩ := Option.map_eq_some_iff.mp hvalid
  obtain ⟨hnames, hnone⟩ := Prod.mk.inj hparts
  cases hnone
  obtain ⟨cis, hcis⟩ := isOk_iff.mp hcis
  obtain ⟨report, hrun⟩ := isOk_iff.mp hrun
  exact ⟨items, cis, report, hnames,
    accounts_iff_distinct unaryMachine _ "x" false true aliasedHost _ report
      (toOption_eq_some.mp hv) hcis (eq_mk_of_fst_eq hrun)⟩

end SkCoord.Cmdb
