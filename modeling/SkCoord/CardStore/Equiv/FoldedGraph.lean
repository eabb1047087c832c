import SkCoord.CardStore.Equiv.Append
import SkCoord.CardStore.Equiv.Dependencies

/-!
# The graph of the folded dependencies

`Depends` is the graph over the cards that fold.  `foldedEdges_edge_iff`: it is the graph that
`foldedEdges` lists, so `wouldCreateCycle` decides whether a new edge closes a cycle in it
(`not_reach_of_checkPasses`).  `depends_amendAppend` and `depends_publishCore` say which
edges a write adds.
-/

namespace SkCoord

open Python Relation

namespace Store

variable {env : Env} {st : Store}

/-- Every core is in the directory of its card, and no directory without a core has logs:
`append_event` looks for the core before it creates a log. -/
structure WellFormed (st : Store) : Prop where
  coreId : ∀ {cardId : String} {core : CardCore},
    (st.dir cardId).core = .present core → core.id = cardId
  noOrphans : ∀ {cardId : String}, (st.dir cardId).core = .absent → (st.dir cardId).logs = []

/-- `b` is a folded dependency of `a`. -/
def Depends (env : Env) (st : Store) (a b : String) : Prop :=
  ∃ c, fold env st a = .ok (some c) ∧ b ∈ c.dependencies

/-- A card that folds has a core, and its identifier. -/
theorem fold_core {cardId : String} {c : Card} (h : fold env st cardId = .ok (some c)) :
    ∃ core, (st.dir cardId).core = .present core ∧ c.id = core.id := by
  obtain ⟨core, events, s, hcore, -, hs, rfl⟩ := fold_eq_some.mp h
  exact ⟨core, loadCore_eq_some hcore, (foldCard_dependencies hs).1⟩

/-! ### Writes keep the store well formed -/

theorem requireFoldableCore_eq_ok {cardId : String}
    (h : requireFoldableCore env st cardId = .ok ()) : ∃ c, fold env st cardId = .ok (some c) := by
  unfold requireFoldableCore at h
  obtain ⟨card, hcard, h⟩ := bind_eq_ok.mp h
  cases card with
  | none => cases h
  | some c => exact ⟨c, hcard⟩

theorem appendEvent_wellFormed (hwf : st.WellFormed) {cardId action agent : String}
    {payload : Dict} {stamp : Stamp} {st' : Store} {e : Event}
    (h : appendEvent env st cardId action agent payload stamp = .ok (st', e)) :
    st'.WellFormed := by
  obtain ⟨payload', -, hfold, -, ⟨-, rfl⟩ | ⟨-, -, rfl⟩⟩ := appendEvent_eq_ok h
  · exact hwf
  · obtain ⟨c, hc⟩ := requireFoldableCore_eq_ok hfold
    obtain ⟨core, hcore, -⟩ := fold_core hc
    refine ⟨fun {id core'} hid => ?_, fun {id} hid => ?_⟩
    · rw [core_appendLine] at hid
      exact hwf.coreId hid
    · rw [core_appendLine] at hid
      by_cases hne : id = cardId
      · rw [hne, hcore] at hid
        cases hid
      · rw [dir_appendLine_of_ne hne]
        exact hwf.noOrphans hid

theorem publishCore_wellFormed (hwf : st.WellFormed) (core : CardCore) :
    (st.publishCore core).WellFormed := by
  unfold publishCore
  split
  · exact hwf
  · refine ⟨fun {id core'} hid => ?_, fun {id} hid => ?_⟩
    · by_cases hne : id = core.id
      · rw [hne, dir_setCore_self] at hid
        cases hid
        exact hne.symm
      · rw [dir_setCore_of_ne _ hne] at hid
        exact hwf.coreId hid
    · by_cases hne : id = core.id
      · rw [hne, dir_setCore_self] at hid
        cases hid
      · rw [dir_setCore_of_ne _ hne] at hid ⊢
        exact hwf.noOrphans hid

/-! ### The graph that is listed -/

/-- The dependencies under which a card is listed. -/
def listedDependencies (env : Env) (st : Store) (cardId : String) : List String :=
  match fold env st cardId with
  | .ok (some c) => c.dependencies
  | _ => []

theorem depends_iff {a b : String} : Depends env st a b ↔ b ∈ listedDependencies env st a := by
  unfold Depends listedDependencies
  cases h : fold env st a with
  | error e => simp
  | ok r => cases r with
    | none => simp
    | some c => simp

theorem cardEdges_eq_some (hwf : st.WellFormed) {cardId : String} {p : String × List String}
    (h : cardEdges env st cardId = some p) : p = (cardId, listedDependencies env st cardId) := by
  unfold cardEdges at h
  unfold listedDependencies
  cases hf : fold env st cardId with
  | error e => rw [hf] at h; cases h; rfl
  | ok r =>
    rw [hf] at h
    cases r with
    | none => cases h
    | some c =>
      obtain ⟨core, hcore, hid⟩ := fold_core hf
      cases h
      rw [hid, hwf.coreId hcore]

/-- Reading a dictionary that was filled with the values of a function. -/
theorem get?_foldl_set {f : String → List String} (k : String) :
    ∀ (l : List (String × List String)) (d : Assoc String (List String)),
      (∀ p ∈ l, p.2 = f p.1) →
      Assoc.get? (l.foldl (fun d p => Assoc.set d p.1 p.2) d) k =
        if k ∈ l.map Prod.fst then some (f k) else Assoc.get? d k
  | [], d, _ => by simp
  | p :: l, d, hl => by
    rw [List.foldl_cons, get?_foldl_set k l _ fun q hq => hl q (List.mem_cons_of_mem _ hq),
      Assoc.get?_set, List.map_cons, hl p List.mem_cons_self]
    by_cases hk : k ∈ l.map Prod.fst
    · simp [hk]
    · by_cases hp : k = p.1 <;> simp [hk, hp]

theorem namesWithCore_eq {names ids : List String} (h : namesWithCore st names = .ok ids) :
    ids = names.filter fun name => (st.dir name).core.exists := by
  induction names generalizing ids with
  | nil => cases h; rfl
  | cons name names ih =>
    unfold namesWithCore at h
    obtain ⟨-, -, h⟩ := bind_eq_ok.mp h
    obtain ⟨rest, hrest, h⟩ := bind_eq_ok.mp h
    rw [pure_eq_ok, ih hrest] at h
    rw [← h, List.filter_cons]

/-- A directory with a core is listed. -/
theorem mem_listCardIds_of_core {ids : List String} (h : listCardIds st = .ok ids)
    {cardId : String} {core : CardCore} (hcore : (st.dir cardId).core = .present core) :
    cardId ∈ ids := by
  have hkey : cardId ∈ Assoc.keys st.cards := by
    by_contra hno
    unfold dir at hcore
    rw [(Assoc.get?_eq_none_iff _ _).mpr hno] at hcore
    cases hcore
  rw [namesWithCore_eq h, List.mem_filter, List.mem_insertionSort, hcore]
  exact ⟨hkey, rfl⟩

/-- A card that folds is listed. -/
theorem mem_listCardIds {ids : List String} (h : listCardIds st = .ok ids) {cardId : String}
    {c : Card} (hc : fold env st cardId = .ok (some c)) : cardId ∈ ids :=
  (fold_core hc).elim fun _ hcore => mem_listCardIds_of_core h hcore.1

/-- **The graph that is listed** is the graph of the folded dependencies. -/
theorem foldedEdges_edge_iff (hwf : st.WellFormed) {edges : Assoc String (List String)}
    (h : foldedEdges env st = .ok edges) {a b : String} :
    DirectedGraph.Edge edges a b ↔ Depends env st a b := by
  unfold foldedEdges at h
  obtain ⟨ids, hids, h⟩ := bind_eq_ok.mp h
  rw [pure_eq_ok] at h
  have hvalues : ∀ p ∈ ids.filterMap (cardEdges env st),
      p.2 = listedDependencies env st p.1 := by
    intro p hp
    obtain ⟨id, -, hid⟩ := List.mem_filterMap.mp hp
    rw [cardEdges_eq_some hwf hid]
  rw [DirectedGraph.Edge, DirectedGraph.successors, ← h, get?_foldl_set a _ _ hvalues,
    depends_iff]
  split
  · rfl
  · rename_i hno
    rw [Assoc.get?_nil, Option.getD_none]
    refine ⟨fun hb => (List.not_mem_nil hb).elim, fun hb => ?_⟩
    obtain ⟨c, hc, -⟩ := depends_iff.mpr hb
    refine absurd ?_ hno
    exact List.mem_map.mpr ⟨_, List.mem_filterMap.mpr
      ⟨a, mem_listCardIds hids hc, by rw [cardEdges, hc]⟩, (fold_core hc).elim fun core hcore => by
        rw [hcore.2, hwf.coreId hcore.1]⟩

theorem wouldCreateCycle_iff {edges : Assoc String (List String)} {cardId dependencyId : String} :
    wouldCreateCycle edges cardId dependencyId = true ↔
      ReflTransGen (DirectedGraph.Edge edges) dependencyId cardId := by
  unfold wouldCreateCycle
  split
  · rename_i heq
    exact ⟨fun _ => heq ▸ .refl, fun _ => rfl⟩
  · exact DirectedGraph.search_iff

/-- The check of `amend_dependency`, taken on this store, passes. -/
def CheckPasses (env : Env) (st : Store) (cardId dependencyId : String) : Prop :=
  ∃ edges, foldedEdges env st = .ok edges ∧ wouldCreateCycle edges cardId dependencyId = false

theorem not_reach_of_checkPasses (hwf : st.WellFormed) {cardId dependencyId : String}
    (h : CheckPasses env st cardId dependencyId) :
    ¬ReflTransGen (Depends env st) dependencyId cardId := by
  obtain ⟨edges, hedges, hno⟩ := h
  intro hreach
  have hedge : ∀ a b, Depends env st a b → DirectedGraph.Edge edges a b :=
    fun a b hab => (foldedEdges_edge_iff hwf hedges).mpr hab
  rw [wouldCreateCycle_iff.mpr (ReflTransGen.mono hedge _ _ hreach)] at hno
  cases hno

/-! ### Edges that a write adds -/

/-- The event of an amendment is an `add_dependency` of its dependency. -/
theorem newEvent_amendment {lines : List LogLine} {agent : String} {a : Amendment}
    {stamp : Stamp} :
    (newEvent env lines "add_dependency" agent a.payload stamp).action = .addDependency ∧
      Dict.get (newEvent env lines "add_dependency" agent a.payload stamp) "dependency" =
        .str a.dependencyId :=
  ⟨rfl, rfl⟩

theorem amendAppend_wellFormed (hwf : st.WellFormed) {a : Amendment} {stamp : Stamp} {st' : Store}
    {e : Event} (h : amendAppend env st a stamp = .ok (st', e)) : st'.WellFormed :=
  appendEvent_wellFormed hwf h

/-- **An amendment** adds its own edge and no other. -/
theorem depends_amendAppend {a : Amendment} {stamp : Stamp} {st' : Store} {e : Event}
    (h : amendAppend env st a stamp = .ok (st', e)) {x y : String} (hxy : Depends env st' x y) :
    Depends env st x y ∨ x = a.cardId ∧ y = a.dependencyId := by
  obtain ⟨payload', hpay, hfold, -, ⟨-, rfl⟩ | ⟨-, he, rfl⟩⟩ := appendEvent_eq_ok h
  · exact Or.inl hxy
  · obtain ⟨c', hc', hy⟩ := hxy
    by_cases hx : x = a.cardId
    · subst hx
      obtain rfl : payload' = a.payload := (pure_eq_ok.mp hpay).symm
      obtain ⟨c, hc⟩ := requireFoldableCore_eq_ok hfold
      obtain ⟨core, events, s, hcore, hevents, hs, rfl⟩ := fold_eq_some.mp hc
      obtain ⟨core', events', s', hcore', hevents', hs', rfl⟩ := fold_eq_some.mp hc'
      have hsame : core' = core := by
        have h1 := loadCore_eq_some hcore'
        rw [core_appendLine, loadCore_eq_some hcore] at h1
        cases h1
        rfl
      rw [(foldCard_dependencies hs').2, hsame] at hy
      have hins := mergedEvents_appendLine (endsWith_writerFile env _) hevents hevents'
      have hnew := @newEvent_amendment env
        (st.logLines a.cardId (writerFile env (if a.agent = "" then "coord" else a.agent)))
        (if a.agent = "" then "coord" else a.agent) a stamp
      rw [← he] at hnew
      rcases foldl_dependenciesNext_insert hnew.1 hnew.2 hins _ hy with hold | hd
      · refine Or.inl ⟨s.card, hc, ?_⟩
        rwa [(foldCard_dependencies hs).2]
      · exact Or.inr ⟨rfl, hd⟩
    · rw [fold_appendLine_of_ne hx] at hc'
      exact Or.inl ⟨c', hc', hy⟩

/-- No legacy mutation is about dependencies. -/
theorem dependenciesNext_toEvent (deps : List String) (m : LegacyMutation) :
    dependenciesNext deps m.toEvent = deps := by
  have hget : Dict.get m.toEvent "action" = .str m.action.value := rfl
  unfold dependenciesNext Event.action
  rw [hget]
  cases m.action <;> rfl

theorem foldl_dependenciesNext_of_forall {events : List Event} (deps : List String)
    (h : ∀ e ∈ events, ∃ m : LegacyMutation, e = m.toEvent) :
    events.foldl dependenciesNext deps = deps := by
  induction events with
  | nil => rfl
  | cons e events ih =>
    obtain ⟨m, rfl⟩ := h e List.mem_cons_self
    rw [List.foldl_cons, dependenciesNext_toEvent]
    exact ih fun e he => h e (List.mem_cons_of_mem _ he)

/-- **A new card** adds the edges of its core and no other. -/
theorem depends_publishCore (hwf : st.WellFormed) {core : CardCore} {x y : String}
    (hxy : Depends env (st.publishCore core) x y) :
    Depends env st x y ∨ x = core.id ∧ y ∈ core.dependencies := by
  unfold publishCore at hxy
  split at hxy
  · exact Or.inl hxy
  · rename_i habsent
    obtain ⟨c, hc, hy⟩ := hxy
    by_cases hx : x = core.id
    · subst hx
      have hlogs : (st.dir core.id).logs = [] := by
        refine hwf.noOrphans ?_
        cases hd : (st.dir core.id).core with
        | absent => rfl
        | malformed => rw [hd] at habsent; exact absurd rfl habsent
        | present _ => rw [hd] at habsent; exact absurd rfl habsent
      obtain ⟨core', events, s, hcore, hevents, hs, rfl⟩ := fold_eq_some.mp hc
      have hsame : core' = core := by
        have h1 := loadCore_eq_some hcore
        rw [dir_setCore_self] at h1
        exact (CoreFile.present.inj h1).symm
      have hnone : logEvents ((st.setCore core).dir core.id) = [] := by
        rw [dir_setCore_self, logEvents, sortedLogs, hlogs]
        rfl
      have hlegacy : ∀ e ∈ events, ∃ m : LegacyMutation, e = m.toEvent := by
        intro e he
        have hmem := (mergedEvents_perm hevents).mem_iff.mp he
        rw [hnone, List.nil_append] at hmem
        obtain ⟨m, -, rfl⟩ := List.mem_map.mp hmem
        exact ⟨m, rfl⟩
      rw [(foldCard_dependencies hs).2, foldl_dependenciesNext_of_forall _ hlegacy, hsame] at hy
      exact Or.inr ⟨rfl, hy⟩
    · rw [fold_congr (dir_setCore_of_ne _ hx) rfl] at hc
      exact Or.inl ⟨c, hc, hy⟩

end Store

end SkCoord
