import SkCoord.Cmdb.Equiv.Growth
import SkCoord.Graph.Acyclic

/-!
# Alias links

`AliasLink` is the graph of the `alias_of` relationships over the items of a store.  A call of
`reconcile` adds links of `NewLink` at most, so a call that is `Straight` keeps the graph
`Canonical`: it has no cycle, and no item has two links.
-/

namespace SkCoord.Cmdb

open Python Python.Effect Relation DirectedGraph

variable {env : Env} {dir : CmdbDir} {agent : String} {scanComplete : Bool}

/-- The item `x` is an alias of `t`. -/
def AliasLink (env : Env) (dir : CmdbDir) (x t : String) : Prop :=
  ∃ ci, dir.getCi env x = .ok (some ci) ∧ hasEdge "alias_of" t ci = true

/-- The links have no cycle, and no item has two. -/
structure Canonical (env : Env) (dir : CmdbDir) : Prop where
  acyclic : Acyclic (AliasLink env dir)
  one : ∀ x t t', AliasLink env dir x t → AliasLink env dir x t' → t = t'

/-- **One canonical item**: from every item the links lead to one that has no link. -/
theorem Canonical.exists_unique (h : Canonical env dir) (x : String) :
    ∃! c, ReflTransGen (AliasLink env dir) x c ∧ ∀ t, ¬AliasLink env dir c t := by
  have hnames : ∀ a b, AliasLink env dir a b → a ∈ dir.ciNames := by
    rintro a b ⟨ci, hci, -⟩
    obtain ⟨content, core, ci₀, hcontent, -, -, -⟩ := getCi_eq_ok hci
    exact mem_ciNames_of_core hcontent
  obtain ⟨c, hc, hend⟩ := h.acyclic.exists_end hnames x
  exact ⟨c, ⟨hc, hend⟩, fun c' ⟨hc', hend'⟩ => end_unique h.one hc' hend' hc hend⟩

/-! ### Links and events -/

/-- A link of an item is one that its events leave. -/
theorem AliasLink.edgeIn {x t : String} (h : AliasLink env dir x t) :
    t ≠ "" ∧ edgeIn "alias_of" t ((dir.ciDir x).events env.floats) = true := by
  obtain ⟨ci, hci, hedge⟩ := h
  obtain ⟨r, hr, hlinks⟩ := List.any_eq_true.mp hedge
  have htarget : t ≠ "" := (links_iff.mp hlinks).2 ▸ target_ne_of_getCi hci r hr
  rw [hasEdge_getCi htarget hci] at hedge
  exact ⟨htarget, hedge⟩

/-- The links that a call adds. -/
abbrev NewLink (scanComplete : Bool) (existing : Assoc String ConfigItem) (s : Identified)
    (x t : String) : Prop :=
  NewEdge scanComplete existing s x "alias_of" t

/-- A batch on a store: no new link closes a cycle or gives an item a second link, and no other link
appears, since the items that are created have no events that link them and no unfinished line that
is spoilt removes a link. -/
structure Straight (env : Env) (dir : CmdbDir) (agent : String) (scanComplete : Bool)
    (existing : Assoc String ConfigItem) (s : Identified) : Prop where
  back : ∀ x t, NewLink scanComplete existing s x t →
    ¬ReflTransGen (fun x t => AliasLink env dir x t ∨ NewLink scanComplete existing s x t) t x
  one : ∀ x t t', NewLink scanComplete existing s x t →
    AliasLink env dir x t' ∨ NewLink scanComplete existing s x t' → t = t'
  unlinked : ∀ x t, Creates existing s x → (dir.ciDir x).core = none →
    edgeIn "alias_of" t ((dir.ciDir x).events env.floats) = false
  finished : ∀ x t, Writes env scanComplete existing s x →
    ∀ e ∈ (dir.ciDir x).unfinishedEvents env.floats (writerFile env agent),
      unrelates "alias_of" t e = false

/-- A call whose batch is straight, when it is valid. -/
def StraightCall (env : Env) (dir : CmdbDir) (discovered : List DiscoveredCI) (agent : String)
    (scanComplete : Bool) : Prop :=
  ∀ items findings cis identified,
    validatedDiscovery env dir discovered = .ok (items, [], findings) →
      dir.listCis env = .ok cis → identify env (byIdentifier cis) items = .ok identified →
        Straight env dir agent scanComplete (byIdentifier cis) identified

/-! ### Calls -/

/-- The links of a store that has grown are old ones or new ones. -/
theorem aliasLink_of_grownStore {existing : Assoc String ConfigItem} {identified : Identified}
    {dir' : CmdbDir} (hstraight : Straight env dir agent scanComplete existing identified)
    {cis : List ConfigItem} (hcis : dir.listCis env = .ok cis)
    (h : GrownStore env agent (fun x content => Creates existing identified x ∧ CoreOf env x content)
      (Writes env scanComplete existing identified) (NewEdge scanComplete existing identified)
      dir dir')
    {x t : String} (hlink : AliasLink env dir' x t) :
    AliasLink env dir x t ∨ NewLink scanComplete existing identified x t := by
  obtain ⟨htarget, hedge⟩ := hlink.edgeIn
  obtain ⟨ci', hci', -⟩ := hlink
  have hold_or : edgeIn "alias_of" t ((dir.ciDir x).events env.floats) = true ∨
      NewLink scanComplete existing identified x t := by
    rcases edge_of_grownStore h hedge with hold | ⟨hwrites, hcut⟩ | hnew
    · exact .inl hold
    · exact .inl (edge_of_cut (endsWith_writerFile env agent) (hstraight.finished x t hwrites) hcut)
    · exact .inr hnew
  refine hold_or.imp_left fun hold => ?_
  rcases item_of_grownStore h hcis hci' with ⟨ci, -, hci⟩ |
    ⟨hcore, -, hcreates, -⟩
  · exact ⟨ci, hci, by rwa [hasEdge_getCi htarget hci]⟩
  · rw [hstraight.unlinked x t hcreates hcore] at hold
    cases hold

/-- **One call** that is straight keeps the links canonical, also when it raises. -/
theorem canonical_reconcile {discovered : List DiscoveredCI} {s : Manager}
    (hcanonical : Canonical env s.dir)
    (hcall : StraightCall env s.dir discovered agent scanComplete) :
    Canonical env ((reconcile env discovered agent true scanComplete).run s).2.dir := by
  rcases grownStore_reconcile env discovered agent true scanComplete s with
    hsame | ⟨items, findings, cis, identified, hvalid, hcis, hidentify, hgrown⟩
  · rwa [hsame]
  · have hstraight := hcall items findings cis identified hvalid hcis hidentify
    have hlinks := @aliasLink_of_grownStore env s.dir agent scanComplete (byIdentifier cis)
      identified _ hstraight cis hcis hgrown
    exact
      { acyclic := (hcanonical.acyclic.union hstraight.back).mono fun x t hlink => hlinks hlink
        one := fun x t t' hlink hlink' => by
          rcases hlinks hlink with hold | hnew
          · rcases hlinks hlink' with hold' | hnew'
            · exact hcanonical.one x t t' hold hold'
            · exact (hstraight.one x t' t hnew' (.inl hold)).symm
          · exact hstraight.one x t t' hnew (hlinks hlink') }

/-- The stores that straight calls reach. -/
inductive StraightRun (env : Env) (start : Manager) : Manager → Prop
  | start : StraightRun env start start
  | call {s : Manager} (h : StraightRun env start s) (discovered : List DiscoveredCI)
      (agent : String) (scanComplete : Bool)
      (hcall : StraightCall env s.dir discovered agent scanComplete) :
      StraightRun env start ((reconcile env discovered agent true scanComplete).run s).2

/-- **Alias links form no cycle** in a run of straight calls, and every item leads to one canonical
item. -/
theorem aliases_lead_to_canonical (env : Env) (start s : Manager)
    (hstart : ∀ x t, ¬AliasLink env start.dir x t) (hrun : StraightRun env start s) :
    Acyclic (AliasLink env s.dir) ∧
      ∀ x, ∃! c, ReflTransGen (AliasLink env s.dir) x c ∧ ∀ t, ¬AliasLink env s.dir c t := by
  have hcanonical : Canonical env s.dir := by
    induction hrun with
    | start => exact ⟨acyclic_of_empty hstart, fun x t _ hlink => (hstart x t hlink).elim⟩
    | call _ discovered agent scanComplete hcall ih => exact canonical_reconcile ih hcall
  exact ⟨hcanonical.acyclic, hcanonical.exists_unique⟩

/-! ### Hosts that carry each other's name -/

/-- The hosts `a` and `b`, each under the name of the other. -/
def crossedHosts : Manager :=
  storeOf [("ci-host-a", canonicalCore "ci-host-a" "host" "b" "a"),
    ("ci-host-b", canonicalCore "ci-host-b" "host" "a" "b")]

/-- The reconciliation of hosts on the store of crossed hosts. -/
def crossedReconciled (letters : List String) : Except PyError ReconcileReport × Manager :=
  (reconcile unaryMachine (letters.map fun letter => canonicalItem "host" letter []) "x" true true).run crossedHosts

/-- The items of the store of crossed hosts, as its cores say. -/
theorem listCis_crossedHosts : crossedHosts.dir.listCis unaryMachine = itemsOfCores unaryMachine
    [("ci-host-a", canonicalCore "ci-host-a" "host" "b" "a"),
      ("ci-host-b", canonicalCore "ci-host-b" "host" "a" "b")] := by
  refine listCis_storeOf rfl fun p hp => ?_
  rcases List.mem_pair.mp hp with rfl | rfl
  · exact wellFormed_canonicalCore _ _ _ _
  · exact wellFormed_canonicalCore _ _ _ _

theorem not_aliasLink_storeOf {cores : List (String × Dict)} (x t : String) :
    ¬AliasLink env (storeOf cores).dir x t := by
  intro h
  have hedge := h.edgeIn.2
  rw [CiDir.events, logs_storeOf] at hedge
  cases hedge

/-- The item is an alias, as far as it is read. -/
def readsLink (env : Env) (dir : CmdbDir) (x t : String) : Bool :=
  match dir.getCi env x with
  | .ok (some ci) => hasEdge "alias_of" t ci
  | _ => false

theorem aliasLink_of_readsLink {x t : String} (h : readsLink env dir x t = true) :
    AliasLink env dir x t := by
  unfold readsLink at h
  split at h
  · rename_i ci hci
    exact ⟨ci, hci, h⟩
  · cases h

/-- The event that links an alias to its canonical item. -/
def aliasEvent (ts target : String) : Dict :=
  newEvent unaryMachine 0 "x" "relate" ts
    [("rel_type", .str "alias_of"), ("target", .str target), ("authority", .str "")]

/-- A host whose one event links it is read with the link. -/
theorem getCi_of_alias {dir : CmdbDir} {ciId name letter ts target : String}
    (hcore : (dir.ciDir ciId).core = some (encodeUtf8
      ((Json.obj (canonicalCore ciId "host" name letter)).dumps zeroFloats .compact)))
    (hlogs : (dir.ciDir ciId).logs =
      [("x@box.jsonl", [aliasEvent ts target].foldl (withLine zeroFloats) [])]) :
    dir.getCi unaryMachine ciId = itemOfLines unaryMachine ciId "x@box.jsonl"
      (.obj (canonicalCore ciId "host" name letter)) [aliasEvent ts target] := by
  refine getCi_of_lines hcore ?_ hlogs (by decide +kernel) fun e he => ?_
  · rw [CmdbDir.coreValue, decodeUtf8_encodeUtf8, Option.bind_some]
    exact Json.loads_dumps _ _ (wellFormed_canonicalCore _ _ _ _)
  · rw [List.mem_singleton.mp he]
    exact stamped_newEvent

theorem crossed_core_a : ((crossedReconciled ["a", "b"]).2.dir.ciDir "ci-host-a").core =
    some (encodeUtf8
      ((Json.obj (canonicalCore "ci-host-a" "host" "b" "a")).dumps zeroFloats .compact)) := by
  unfold crossedReconciled reconcile validatedDiscovery
  rw [run_get_bind, listCis_crossedHosts]
  decide +kernel

theorem crossed_logs_a : ((crossedReconciled ["a", "b"]).2.dir.ciDir "ci-host-a").logs =
    [("x@box.jsonl", [aliasEvent "" "ci-host-b"].foldl (withLine zeroFloats) [])] := by
  unfold crossedReconciled reconcile validatedDiscovery
  rw [run_get_bind, listCis_crossedHosts]
  decide +kernel

theorem crossed_core_b : ((crossedReconciled ["a", "b"]).2.dir.ciDir "ci-host-b").core =
    some (encodeUtf8
      ((Json.obj (canonicalCore "ci-host-b" "host" "a" "b")).dumps zeroFloats .compact)) := by
  unfold crossedReconciled reconcile validatedDiscovery
  rw [run_get_bind, listCis_crossedHosts]
  decide +kernel

theorem crossed_logs_b : ((crossedReconciled ["a", "b"]).2.dir.ciDir "ci-host-b").logs =
    [("x@box.jsonl", [aliasEvent "a" "ci-host-a"].foldl (withLine zeroFloats) [])] := by
  unfold crossedReconciled reconcile validatedDiscovery
  rw [run_get_bind, listCis_crossedHosts]
  decide +kernel

/-- What the reconciliation of both hosts returns and leaves. -/
theorem crossed_run : ((crossedReconciled ["a", "b"]).1.toOption.map
      ReconcileReport.validationFailures,
    readsLink unaryMachine (crossedReconciled ["a", "b"]).2.dir "ci-host-a" "ci-host-b",
    readsLink unaryMachine (crossedReconciled ["a", "b"]).2.dir "ci-host-b" "ci-host-a") =
      (some [], true, true) := by
  have hreport : (crossedReconciled ["a", "b"]).1.toOption.map
      ReconcileReport.validationFailures = some [] := by
    unfold crossedReconciled reconcile validatedDiscovery
    rw [run_get_bind, listCis_crossedHosts]
    decide +kernel
  have hab : readsLink unaryMachine (crossedReconciled ["a", "b"]).2.dir "ci-host-a" "ci-host-b" =
      true := by
    rw [readsLink, getCi_of_alias crossed_core_a crossed_logs_a]
    decide +kernel
  have hba : readsLink unaryMachine (crossedReconciled ["a", "b"]).2.dir "ci-host-b" "ci-host-a" =
      true := by
    rw [readsLink, getCi_of_alias crossed_core_b crossed_logs_b]
    decide +kernel
  rw [hreport, hab, hba]

/-- One call links the two hosts to each other. -/
theorem crossed_hosts_cycle : (∀ x t, ¬AliasLink unaryMachine crossedHosts.dir x t) ∧
    (∃ r, crossedReconciled ["a", "b"] = (.ok r, (crossedReconciled ["a", "b"]).2) ∧
      r.validationFailures = []) ∧
    ¬Acyclic (AliasLink unaryMachine (crossedReconciled ["a", "b"]).2.dir) := by
  obtain ⟨hreport, hlinks⟩ := Prod.mk.inj crossed_run
  obtain ⟨hab, hba⟩ := Prod.mk.inj hlinks
  obtain ⟨r, hr, hvalid⟩ := Option.map_eq_some_iff.mp hreport
  exact ⟨fun x t => not_aliasLink_storeOf x t,
    ⟨r, eq_mk_of_fst_eq (toOption_eq_some.mp hr), hvalid⟩, fun hacyclic =>
      hacyclic _ (.tail (.single (aliasLink_of_readsLink hab)) (aliasLink_of_readsLink hba))⟩

/-- What the reconciliation of the host `a` finds on the store. -/
def crossedIdentified : Except PyError Identified := do
  let (items, _, _) ← validatedDiscovery unaryMachine crossedHosts.dir [canonicalItem "host" "a" []]
  let cis ← crossedHosts.dir.listCis unaryMachine
  identify unaryMachine (byIdentifier cis) items

theorem crossed_straight : StraightCall unaryMachine crossedHosts.dir
    [canonicalItem "host" "a" []] "x" true := by
  have heval : crossedIdentified.toOption.map (fun t =>
      (t.migrations, t.byId.flatMap fun p => p.2.item.relationships)) =
        some ([("ci-host-b", "ci-host-a")], []) := by
    unfold crossedIdentified validatedDiscovery
    rw [listCis_crossedHosts]
    decide +kernel
  intro items findings cis identified hvalid hcis hidentify
  have hfound : crossedIdentified = .ok identified :=
    bind_eq_ok.mpr ⟨_, hvalid, bind_eq_ok.mpr ⟨cis, hcis, hidentify⟩⟩
  rw [hfound] at heval
  obtain ⟨hmigrations, hrels⟩ := Prod.mk.inj (Option.some.inj heval)
  -- the one new link
  have hnew : ∀ {x rt t}, NewEdge true (byIdentifier cis) identified x rt t →
      x = "ci-host-b" ∧ t = "ci-host-a" := by
    rintro x rt t (⟨-, -, hm, -⟩ | ⟨c, hc, hrel⟩)
    · rw [hmigrations] at hm
      exact Prod.mk.inj (List.mem_singleton.mp hm)
    · have hmem : (rt, t) ∈ identified.byId.flatMap fun p => p.2.item.relationships :=
        List.mem_flatMap.mpr ⟨_, hc, hrel⟩
      rw [hrels] at hmem
      cases hmem
  refine ⟨?_, ?_, ?_, ?_⟩
  · intro x t hlink hpath
    obtain ⟨rfl, rfl⟩ := hnew hlink
    rcases hpath.cases_head with heq | ⟨d, hd | hd, -⟩
    · exact absurd heq (by decide)
    · exact not_aliasLink_storeOf _ _ hd
    · exact absurd (hnew hd).1 (by decide)
  · rintro x t t' hlink (hlink' | hlink')
    · exact (not_aliasLink_storeOf _ _ hlink').elim
    · rw [(hnew hlink).2, (hnew hlink').2]
  · intro x t _ _
    rw [CiDir.events, crossedHosts, logs_storeOf]
    rfl
  · intro x t _ e he
    rw [CiDir.unfinishedEvents, CiDir.log, crossedHosts, logs_storeOf] at he
    cases he

/-- The reconciliation of the host `a` leads the other one to it. -/
theorem aliases_lead_to_canonical_crossed :
    StraightRun unaryMachine crossedHosts (crossedReconciled ["a"]).2 ∧
      Acyclic (AliasLink unaryMachine (crossedReconciled ["a"]).2.dir) ∧
      ∀ x, ∃! c, ReflTransGen (AliasLink unaryMachine (crossedReconciled ["a"]).2.dir) x c ∧
        ∀ t, ¬AliasLink unaryMachine (crossedReconciled ["a"]).2.dir c t := by
  have hrun : StraightRun unaryMachine crossedHosts (crossedReconciled ["a"]).2 :=
    .call .start _ "x" true crossed_straight
  exact ⟨hrun, aliases_lead_to_canonical unaryMachine crossedHosts _
    (fun x t => not_aliasLink_storeOf x t) hrun⟩

end SkCoord.Cmdb
