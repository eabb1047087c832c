import SkCoord.Coordination.Equiv.Agents

/-!
# The views of the lives

`ViewsAt env st lives views`: each view shows the life of its task and the folded dependencies, and
every task has one.  Both projections are such views: `taskViewsFromStore_at` and, where the agent
and task files show the lives, `legacyTaskViews_at`.  So a dependency is complete in the views
exactly when its life is done (`incompleteIn_eq_nil_iff`), and the gates of a claim let a task
through only if it is open to the agent (`openAt_of_requireClaimable`).
-/

namespace SkCoord

open Python

/-- The task files of a run: every task has one, and each is the file of a task. -/
structure TasksAt (env : BoardEnv) (tasks : Assoc String Task) (lives : Lives) : Prop where
  listed : ∀ {name task}, Assoc.get? tasks name = some task →
    isSyncConflictCopy env.tables name = false
  known : ∀ {name task}, Assoc.get? tasks name = some task → (lives task.id).isSome = true
  file : ∀ {t}, (lives t).isSome = true →
    ∃ name task, Assoc.get? tasks name = some task ∧ task.id = t

/-- Views of the lives. -/
structure ViewsAt (env : BoardEnv) (st : Store) (lives : Lives) (views : List TaskView) : Prop where
  shows : ∀ v ∈ views, ∃ life, lives v.taskId = some life ∧ v.Shows life
  covers : ∀ t, (lives t).isSome = true → ∃ v ∈ views, v.taskId = t
  dependencies : ∀ v ∈ views, ∀ c, st.fold env.env v.taskId = .ok (some c) →
    v.dependencies = c.dependencies

variable {env : BoardEnv} {n : ℕ} {b : Board} {st : Store} {lives lives' : Lives} {t name : String}
  {life : Life} {views : List TaskView}

/-! ### The task files -/

theorem tasksAt_empty : TasksAt env [] fun _ => none :=
  ⟨fun h => (nomatch h), fun h => (nomatch h), fun h => (nomatch h)⟩

theorem TasksAt.congr {tasks : Assoc String Task} (h : TasksAt env tasks lives)
    (hdom : ∀ t, (lives' t).isSome = (lives t).isSome) : TasksAt env tasks lives' :=
  ⟨h.listed, fun hget => (hdom _).trans (h.known hget), fun ht => h.file ((hdom _).symm.trans ht)⟩

/-- The write of a task file. -/
theorem TasksAt.write (h : TasksAt env b.tasks lives) {task : Task} (hlists : ListsTask env b task)
    (hdom : ∀ t, (lives' t).isSome = true ↔ t = task.id ∨ (lives t).isSome = true) :
    TasksAt env (Assoc.set b.tasks (task.fileName env.tables) task) lives' := by
  refine ⟨fun {name x} hget => ?_, fun {name x} hget => ?_, fun {t} ht => ?_⟩
  · by_cases hname : name = task.fileName env.tables
    · rw [hname]
      exact hlists.listed
    · rw [Assoc.get?_set_ne _ _ hname] at hget
      exact h.listed hget
  · by_cases hname : name = task.fileName env.tables
    · rw [hname, Assoc.get?_set_self] at hget
      cases hget
      exact (hdom _).mpr (.inl rfl)
    · rw [Assoc.get?_set_ne _ _ hname] at hget
      exact (hdom _).mpr (.inr (h.known hget))
  · by_cases htask : t = task.id
    · exact ⟨_, task, Assoc.get?_set_self _ _ _, htask.symm⟩
    · obtain ⟨name, x, hget, hx⟩ := h.file (((hdom t).mp ht).resolve_left htask)
      have hname : name ≠ task.fileName env.tables := by
        rintro rfl
        exact htask (hx ▸ hlists.own x hget)
      exact ⟨name, x, by rw [Assoc.get?_set_ne _ _ hname, hget], hx⟩

/-! ### Files that are loaded -/

theorem mem_loadAgents (h : AgentsAt env b.agents lives) {a : AgentFile} :
    a ∈ b.loadAgents env ↔ ∃ name, Assoc.get? b.agents name = some a := by
  unfold Board.loadAgents
  simp only [List.mem_filterMap, List.mem_filter, List.mem_insertionSort, Option.filter_eq_some_iff]
  constructor
  · rintro ⟨name, -, hget, -⟩
    exact ⟨name, hget⟩
  · rintro ⟨name, hget⟩
    have hfile := h.file hget
    refine ⟨name, ⟨Assoc.mem_keys_of_get? hget, ?_⟩, hget, decide_eq_true hfile.agent⟩
    rw [hfile.listed]
    rfl

theorem mem_loadTasks (h : TasksAt env b.tasks lives) (hlegacy : b.store.legacy = [])
    {includeArchived : Bool} {task : Task} :
    task ∈ b.loadTasks env includeArchived ↔ ∃ name, Assoc.get? b.tasks name = some task := by
  have harchived : b.archivedIds = [] := by
    unfold Board.archivedIds
    rw [hlegacy]
    rfl
  unfold Board.loadTasks
  rw [harchived]
  simp only [List.mem_filterMap, List.mem_filter, List.mem_insertionSort, List.not_mem_nil,
    not_false_eq_true, decide_true, Bool.or_true, and_true]
  constructor
  · rintro ⟨name, -, hget⟩
    exact ⟨name, hget⟩
  · rintro ⟨name, hget⟩
    refine ⟨name, ⟨Assoc.mem_keys_of_get? hget, ?_⟩, hget⟩
    rw [h.listed hget]
    rfl

/-! ### The projection of the files -/

/-- The agent's file lists the task as claimed or as current. -/
def AgentFile.Lists (a : AgentFile) (t : String) : Prop :=
  t ∈ a.claimedTasks ∨ a.currentTask = some t

theorem get?_claimsOf (ht : t ≠ "") (d : Assoc String String) (a : AgentFile) :
    (¬a.Lists t ∧ Assoc.get? (claimsOf d a) t = Assoc.get? d t) ∨
      (a.Lists t ∧ Assoc.get? (claimsOf d a) t = some a.agent) := by
  have hclaimed : (t ∉ a.claimedTasks ∧
      Assoc.get? (a.claimedTasks.foldl (fun d tid => Assoc.set d tid a.agent) d) t =
        Assoc.get? d t) ∨
      (t ∈ a.claimedTasks ∧
        Assoc.get? (a.claimedTasks.foldl (fun d tid => Assoc.set d tid a.agent) d) t =
          some a.agent) := by
    rcases Assoc.get?_foldl_set id (fun _ => a.agent) t a.claimedTasks d with
      ⟨hno, hget⟩ | ⟨x, hx, rfl, hget⟩
    · exact .inl ⟨fun hmem => hno t hmem rfl, hget⟩
    · exact .inr ⟨hx, hget⟩
  unfold claimsOf AgentFile.Lists
  cases hc : a.currentTask with
  | none => exact hclaimed.imp (fun h => ⟨fun hl => hl.elim h.1 nofun, h.2⟩) fun h => ⟨.inl h.1, h.2⟩
  | some tid =>
    dsimp only
    by_cases htid : tid = t
    · refine .inr ⟨.inr (congrArg some htid), ?_⟩
      rw [if_neg (htid ▸ ht), htid, Assoc.get?_set_self]
    · have hother : Assoc.get? (if tid = "" then
          a.claimedTasks.foldl (fun d tid => Assoc.set d tid a.agent) d
        else Assoc.set (a.claimedTasks.foldl (fun d tid => Assoc.set d tid a.agent) d) tid
          a.agent) t =
        Assoc.get? (a.claimedTasks.foldl (fun d tid => Assoc.set d tid a.agent) d) t := by
        split
        · rfl
        · rw [Assoc.get?_set_ne _ _ (Ne.symm htid)]
      rw [hother]
      exact hclaimed.imp
        (fun h => ⟨fun hl => hl.elim h.1 fun heq => htid (Option.some.inj heq), h.2⟩)
        fun h => ⟨.inl h.1, h.2⟩

/-- The claims of the agent files: a task that no agent lists is not claimed, and otherwise some
agent that lists it has the claim. -/
theorem get?_claimedMap (ht : t ≠ "") (agents : List AgentFile) :
    ((∀ a ∈ agents, ¬a.Lists t) ∧ Assoc.get? (claimedMap agents) t = none) ∨
      ∃ a ∈ agents, a.Lists t ∧ Assoc.get? (claimedMap agents) t = some a.agent := by
  have hloop : ∀ (agents : List AgentFile) (d : Assoc String String),
      ((∀ a ∈ agents, ¬a.Lists t) ∧ Assoc.get? (agents.foldl claimsOf d) t = Assoc.get? d t) ∨
        ∃ a ∈ agents, a.Lists t ∧ Assoc.get? (agents.foldl claimsOf d) t = some a.agent := by
    intro agents
    induction agents with
    | nil => exact fun d => .inl ⟨nofun, rfl⟩
    | cons a agents ih =>
      intro d
      rw [List.foldl_cons]
      rcases ih (claimsOf d a) with ⟨hnone, hget⟩ | ⟨x, hx, hlists, hget⟩
      · rcases get?_claimsOf ht d a with ⟨hno, hone⟩ | ⟨hlists, hone⟩
        · refine .inl ⟨fun x hx => ?_, hget.trans hone⟩
          rcases List.mem_cons.mp hx with rfl | hx
          · exact hno
          · exact hnone x hx
        · exact .inr ⟨a, List.mem_cons_self, hlists, hget.trans hone⟩
      · exact .inr ⟨x, List.mem_cons_of_mem _ hx, hlists, hget⟩
  exact hloop agents []

/-- A view of a task shows the life that the agent files show. -/
theorem legacyTaskView_shows (h : AgentsAt env b.agents lives) {task : Task}
    (hlife : lives task.id = some life) (ht : task.id ≠ "") (dependencies : List String) :
    (legacyTaskView (b.loadAgents env) task dependencies).Shows life := by
  -- the file of an agent that lists the task makes the agent its holder
  have hlisted : ∀ a ∈ b.loadAgents env, a.Lists task.id →
      ∃ revision, life = .held a.agent revision := by
    intro a ha hlists
    obtain ⟨name, hget⟩ := (mem_loadAgents h).mp ha
    have hfile := h.file hget
    obtain ⟨revision, hheld⟩ :=
      hfile.claimed task.id (hlists.elim id fun hcur => hfile.current _ hcur)
    rw [hlife] at hheld
    exact ⟨revision, hfile.agent ▸ Option.some.inj hheld⟩
  have hcompleted : (b.loadAgents env).any (fun a => a.completedTasks.contains task.id) = true ↔
      life = .done := by
    rw [List.any_eq_true]
    constructor
    · rintro ⟨a, ha, hmem⟩
      obtain ⟨name, hget⟩ := (mem_loadAgents h).mp ha
      have hdone := (h.file hget).completed task.id (List.contains_iff_mem.mp hmem)
      rw [hlife] at hdone
      exact Option.some.inj hdone
    · rintro rfl
      obtain ⟨name, a, hget, hmem⟩ := h.finisher hlife
      exact ⟨a, (mem_loadAgents h).mpr ⟨name, hget⟩, List.contains_iff_mem.mpr hmem⟩
  -- an open task stands in no list of completed ones, and the claims decide
  have hopened : life ≠ .done →
      ((b.loadAgents env).any fun a => a.completedTasks.contains task.id) = false :=
    fun hne => Bool.eq_false_iff.mpr fun hdone => hne (hcompleted.mp hdone)
  have hclaim := get?_claimedMap ht (b.loadAgents env)
  unfold legacyTaskView
  cases life with
  | held owner revision =>
    have hsome : Assoc.get? (claimedMap (b.loadAgents env)) task.id = some owner := by
      rcases hclaim with ⟨hno, -⟩ | ⟨a, ha, hlists, hget⟩
      · obtain ⟨a, hget, hmem⟩ := h.holder hlife
        exact (hno a ((mem_loadAgents h).mpr ⟨owner, hget⟩) (.inl hmem)).elim
      · obtain ⟨r, hr⟩ := hlisted a ha hlists
        rw [hget]
        cases hr
        rfl
    refine ⟨?_, hsome⟩
    dsimp only
    rw [hopened nofun, if_neg Bool.false_ne_true, hsome]
    split
    · exact .inr rfl
    · exact .inl rfl
  | free =>
    have hno : ∀ a ∈ b.loadAgents env, ¬a.Lists task.id := fun a ha hlists =>
      nomatch (hlisted a ha hlists).choose_spec
    have hnone : Assoc.get? (claimedMap (b.loadAgents env)) task.id = none :=
      hclaim.elim And.right fun ⟨a, ha, hlists, _⟩ => (hno a ha hlists).elim
    refine ⟨?_, hnone⟩
    dsimp only
    have hcurrent : ¬(task.id ≠ "" ∧
        (b.loadAgents env).any (fun a => a.currentTask == some task.id) = true) := by
      rintro ⟨-, hcur⟩
      obtain ⟨a, ha, hcur⟩ := List.any_eq_true.mp hcur
      exact hno a ha (.inr (eq_of_beq hcur))
    rw [hopened nofun, if_neg Bool.false_ne_true, if_neg hcurrent, hnone]
    rfl
  | done =>
    have hnone : Assoc.get? (claimedMap (b.loadAgents env)) task.id = none :=
      hclaim.elim And.right fun ⟨a, ha, hlists, _⟩ =>
        nomatch (hlisted a ha hlists).choose_spec
    refine ⟨?_, hnone⟩
    dsimp only
    rw [if_pos (hcompleted.mpr rfl)]

/-- The identifier of a card is not empty. -/
theorem CardAt.ne_empty (h : CardAt env n st t life) : t ≠ "" := by
  rintro rfl
  have hvalid := h.valid
  cases hvalid

/-- The folded dependencies of a card. -/
def dependenciesAt (env : BoardEnv) (st : Store) (t : String) : List String :=
  match st.fold env.env t with
  | .ok (some c) => c.dependencies
  | _ => []

theorem dependenciesAt_eq {c : Card} (h : st.fold env.env t = .ok (some c)) :
    dependenciesAt env st t = c.dependencies := by
  unfold dependenciesAt
  rw [h]

/-- **The projection of the files** shows the lives that the files show, whatever the lives of the
same tasks in the store. -/
theorem legacyTaskViews_at (hst : StoreAt env n b.store lives') (ha : AgentsAt env b.agents lives)
    (ht : TasksAt env b.tasks lives)
    (hdom : ∀ t, (lives t).isSome = true → (lives' t).isSome = true) (includeArchived : Bool) :
    ∃ views, legacyTaskViews env b includeArchived = .ok views ∧
      ViewsAt env b.store lives views := by
  -- every task of the files has a life in the store too, so its card folds
  have hfold : ∀ task ∈ b.loadTasks env includeArchived,
      ∃ c, b.store.fold env.env task.id = .ok (some c) := by
    intro task hmem
    obtain ⟨name, hget⟩ := (mem_loadTasks ht hst.legacy).mp hmem
    obtain ⟨life, hlife⟩ := Option.isSome_iff_exists.mp (hdom _ (ht.known hget))
    obtain ⟨c, hc, -⟩ := hst.fold hlife
    exact ⟨c, hc⟩
  have hcriteria : (b.loadTasks env includeArchived).mapM (requireCriteria env b) =
      .ok ((b.loadTasks env includeArchived).map fun _ => ()) := by
    refine mapM_eq_map fun task hmem => ?_
    obtain ⟨c, hc⟩ := hfold task hmem
    exact bind_eq_ok.mpr ⟨some c, hc, rfl⟩
  have hdeps : (b.loadTasks env includeArchived).mapM (currentDependenciesOf env b) =
      .ok ((b.loadTasks env includeArchived).map fun task =>
        dependenciesAt env b.store task.id) := by
    refine mapM_eq_map fun task hmem => ?_
    obtain ⟨c, hc⟩ := hfold task hmem
    rw [dependenciesAt_eq hc]
    exact bind_eq_ok.mpr ⟨some c, hc, rfl⟩
  have hviews : legacyTaskViews env b includeArchived =
      .ok ((b.loadTasks env includeArchived).map fun task =>
        legacyTaskView (b.loadAgents env) task (dependenciesAt env b.store task.id)) := by
    unfold legacyTaskViews
    refine bind_eq_ok.mpr ⟨_, hcriteria, ?_⟩
    rw [hdeps, pure_eq_ok]
    dsimp only
    rw [List.zipWith_map_right, List.zipWith_self]
  refine ⟨_, hviews, ?_, ?_, ?_⟩
  · intro v hv
    obtain ⟨task, hmem, rfl⟩ := List.mem_map.mp hv
    obtain ⟨name, hget⟩ := (mem_loadTasks ht hst.legacy).mp hmem
    obtain ⟨life, hlife⟩ := Option.isSome_iff_exists.mp (ht.known hget)
    obtain ⟨life', hlife'⟩ := Option.isSome_iff_exists.mp (hdom _ (ht.known hget))
    exact ⟨life, hlife, legacyTaskView_shows ha hlife (hst.card hlife').ne_empty _⟩
  · intro t hsome
    obtain ⟨name, task, hget, rfl⟩ := ht.file hsome
    exact ⟨_, List.mem_map.mpr ⟨task, (mem_loadTasks ht hst.legacy).mpr ⟨name, hget⟩, rfl⟩, rfl⟩
  · intro v hv c hc
    obtain ⟨task, -, rfl⟩ := List.mem_map.mp hv
    exact dependenciesAt_eq hc

/-! ### The projection of the cards -/

/-- The view of a card of which the fields are texts. -/
def viewOf (c : Card) : TaskView := ⟨c.id, c.dependencies, .ofColumn c.status, textOf? c.owner⟩

theorem viewOf_shows {c : Card} (h : c.Shows life) : (viewOf c).Shows life := by
  unfold viewOf
  cases life with
  | free => exact ⟨by rw [h.2]; rfl, by rw [h.1]; rfl⟩
  | held owner revision =>
    obtain ⟨howner, hstatus, -⟩ := h
    refine ⟨hstatus.imp (fun h => ?_) fun h => ?_, by rw [howner]; rfl⟩ <;> rw [h] <;> rfl
  | done => exact ⟨by rw [h.2]; rfl, by rw [h.1]; rfl⟩

theorem taskViewFromCard_eq {c : Card} (htask : c.IsTask t) (h : c.Shows life) :
    taskViewFromCard c = .ok (viewOf c) := by
  obtain ⟨title, htitle⟩ := htask.title
  obtain ⟨description, hdescription⟩ := htask.description
  have hlabels : c.labels.any (fun l => (textOf? l).isNone) = false := by
    refine List.any_eq_false.mpr fun l hl hnone => ?_
    obtain ⟨text, rfl⟩ := htask.labels l hl
    cases hnone
  unfold taskViewFromCard viewOf
  rw [hlabels, htitle, hdescription]
  cases life with
  | free => rw [h.1]; rfl
  | held owner revision => rw [h.1]; rfl
  | done => rw [h.1]; rfl

theorem namesWithCore_eq : ∀ {names : List String},
    (∀ name ∈ names, validateCardLockIdentifier name = .ok name ∧
      (st.dir name).core.exists = true) → st.namesWithCore names = .ok names
  | [], _ => rfl
  | name :: names, h => by
    obtain ⟨hvalid, hcore⟩ := h name List.mem_cons_self
    have hrest := namesWithCore_eq fun name hname => h name (List.mem_cons_of_mem _ hname)
    rw [Store.namesWithCore]
    refine bind_eq_ok.mpr ⟨_, hvalid, bind_eq_ok.mpr ⟨_, hrest, ?_⟩⟩
    rw [if_pos hcore]
    rfl

theorem CardAt.exists (h : CardAt env n st t life) : (st.dir t).core.exists = true := by
  obtain ⟨core, -, -, hcore, -⟩ := h.folds
  rw [hcore]
  rfl

/-- **The projection of the cards** shows the lives of the store. -/
theorem taskViewsFromStore_at (hst : StoreAt env n st lives) (includeArchived : Bool) :
    ∃ views, taskViewsFromStore env.env st includeArchived = .ok views ∧
      ViewsAt env st lives views := by
  set ids := (Assoc.keys st.cards).insertionSort fun x y => x ≤ y with hids
  -- the directories are those of the cards that live
  have hlife : ∀ t, t ∈ ids ↔ (lives t).isSome = true := by
    intro t
    rw [hids, List.mem_insertionSort]
    constructor
    · exact hst.listed t
    · intro hsome
      obtain ⟨life, hlife⟩ := Option.isSome_iff_exists.mp hsome
      by_contra hkey
      have hdir : st.dir t = {} := by
        unfold Store.dir
        rw [(Assoc.get?_eq_none_iff _ _).mpr hkey]
        rfl
      have hexists := (hst.card hlife).exists
      rw [hdir] at hexists
      cases hexists
  have hlist : st.listCardIds = .ok ids := by
    refine namesWithCore_eq fun t ht => ?_
    obtain ⟨life, hl⟩ := Option.isSome_iff_exists.mp ((hlife t).mp ht)
    exact ⟨(hst.card hl).valid, (hst.card hl).exists⟩
  set cards := (ids.filterMap (listedCard env.env st includeArchived)).filter fun c =>
    c.kind == .task || c.kind == .epic with hcards
  -- a listed card is a task that shows its life
  have hmem : ∀ c, c ∈ cards ↔ ∃ t life, lives t = some life ∧
      st.fold env.env t = .ok (some c) ∧ c.IsTask t ∧ c.Shows life := by
    intro c
    rw [hcards, List.mem_filter, List.mem_filterMap]
    constructor
    · rintro ⟨⟨t, ht, hc⟩, -⟩
      obtain ⟨life, hl⟩ := Option.isSome_iff_exists.mp ((hlife t).mp ht)
      obtain ⟨c', hfold, htask, hshows⟩ := hst.fold hl
      unfold listedCard at hc
      rw [hfold] at hc
      dsimp only at hc
      rw [htask.archived, Bool.false_and, if_neg Bool.false_ne_true] at hc
      cases hc
      exact ⟨t, life, hl, hfold, htask, hshows⟩
    · rintro ⟨t, life, hl, hfold, htask, hshows⟩
      refine ⟨⟨t, (hlife t).mpr (by rw [hl]; rfl), ?_⟩, ?_⟩
      · unfold listedCard
        rw [hfold]
        dsimp only
        rw [htask.archived, Bool.false_and, if_neg Bool.false_ne_true]
      · rcases htask.kind with hkind | hkind <;> rw [hkind] <;> rfl
  have hviews : taskViewsFromStore env.env st includeArchived = .ok (cards.map viewOf) := by
    refine bind_eq_ok.mpr ⟨ids, hlist, mapM_eq_map fun c hc => ?_⟩
    obtain ⟨t, life, -, -, htask, hshows⟩ := (hmem c).mp hc
    exact taskViewFromCard_eq htask hshows
  refine ⟨_, hviews, ?_, ?_, ?_⟩
  · intro v hv
    obtain ⟨c, hc, rfl⟩ := List.mem_map.mp hv
    obtain ⟨t, life, hl, -, htask, hshows⟩ := (hmem c).mp hc
    exact ⟨life, by rw [← hl, ← htask.id]; rfl, viewOf_shows hshows⟩
  · intro t hsome
    obtain ⟨life, hl⟩ := Option.isSome_iff_exists.mp hsome
    obtain ⟨c, hfold, htask, hshows⟩ := hst.fold hl
    exact ⟨viewOf c, List.mem_map_of_mem ((hmem c).mpr ⟨t, life, hl, hfold, htask, hshows⟩),
      htask.id⟩
  · intro v hv c hfold
    obtain ⟨c', hc', rfl⟩ := List.mem_map.mp hv
    obtain ⟨t, -, -, hfold', htask, -⟩ := (hmem c').mp hc'
    have hid : (viewOf c').taskId = t := htask.id
    rw [hid, hfold'] at hfold
    cases hfold
    rfl

/-- **Whichever projection is read**, it shows the lives of the store or those of the files. -/
theorem getTaskViews_at (hst : StoreAt env n b.store lives') (ha : AgentsAt env b.agents lives)
    (ht : TasksAt env b.tasks lives)
    (hdom : ∀ t, (lives t).isSome = true → (lives' t).isSome = true) (includeArchived : Bool) :
    ∃ views, getTaskViews env b includeArchived = .ok views ∧
      (ViewsAt env b.store lives' views ∨ ViewsAt env b.store lives views) := by
  obtain ⟨files, hfiles, hfilesAt⟩ := legacyTaskViews_at hst ha ht hdom includeArchived
  obtain ⟨cards, hcards, hcardsAt⟩ := taskViewsFromStore_at hst includeArchived
  unfold getTaskViews
  split
  · rw [hcards]
    dsimp only
    split
    · exact ⟨cards, rfl, .inl hcardsAt⟩
    · exact ⟨files, hfiles, .inr hfilesAt⟩
  · exact ⟨files, hfiles, .inr hfilesAt⟩

/-! ### What the gates make of the views -/

theorem shows_done_iff {v : TaskView} (h : v.Shows life) : v.status = .done ↔ life = .done := by
  cases life with
  | free => exact ⟨fun hd => (nomatch h.1.symm.trans hd), nofun⟩
  | held owner revision =>
    refine ⟨fun hd => ?_, nofun⟩
    rcases h.1 with hs | hs <;> exact nomatch hs.symm.trans hd
  | done => exact ⟨fun _ => rfl, fun _ => h.1⟩

/-- **Dependencies are complete** in the views exactly when they are done. -/
theorem incompleteIn_eq_nil_iff (h : ViewsAt env st lives views) (dependencies : List String) :
    incompleteIn views dependencies = [] ↔ ∀ d ∈ dependencies, lives d = some .done := by
  have hdone : ∀ d, (Assoc.get? (views.foldl (fun m v => Assoc.set m v.taskId v) []) d).any
      (fun v => v.status == .done) = true ↔ lives d = some .done := by
    intro d
    rcases Assoc.get?_foldl_set TaskView.taskId id d views [] with ⟨hno, hget⟩ | ⟨v, hv, rfl, hget⟩
      <;> dsimp only [id] at hget <;> rw [hget]
    · refine ⟨nofun, fun hlife => ?_⟩
      obtain ⟨v, hv, hid⟩ := h.covers d (by rw [hlife]; rfl)
      exact (hno v hv hid).elim
    · obtain ⟨life, hlife, hshows⟩ := h.shows v hv
      rw [hlife, Option.some.injEq, ← shows_done_iff hshows]
      exact beq_iff_eq
  unfold incompleteIn
  rw [List.filter_eq_nil_iff]
  refine forall₂_congr fun d _ => ?_
  rw [Bool.not_eq_true, Bool.not_eq_false', hdone]

/-- A target that is not taken is open to the agent. -/
theorem isTaken_eq_false_iff {v : TaskView} {agentName : String} (h : v.Shows life) :
    v.isTaken agentName = false ↔ life.OpenTo agentName := by
  unfold TaskView.isTaken
  cases life with
  | free => rw [h.1]; exact ⟨fun _ => trivial, fun _ => rfl⟩
  | held owner revision =>
    have hopen : ((some owner : Option String) != some agentName) = false ↔ owner = agentName := by
      rw [bne_eq_false_iff_eq, Option.some.injEq]
    rw [h.2]
    rcases h.1 with hs | hs <;> rw [hs] <;> exact hopen
  | done =>
    rw [h.1, h.2]
    exact ⟨nofun, fun hopen => hopen.elim⟩

/-- **The gates of a claim** let a task through only if it is open to the agent. -/
theorem openAt_of_requireClaimable {agentName : String}
    (hviews : getTaskViews env b false = .ok views) (h : ViewsAt env b.store lives views)
    (hok : requireClaimable env b agentName t = .ok ()) :
    (lives t).isSome = true ∧ OpenAt lives t agentName := by
  unfold requireClaimable at hok
  obtain ⟨views', hviews', hok⟩ := bind_eq_ok.mp hok
  rw [hviews] at hviews'
  cases hviews'
  split at hok
  · obtain ⟨refusal, -, hok⟩ := bind_eq_ok.mp hok
    cases hok
  · rename_i target hfind
    have hid : target.taskId = t := by simpa using List.find?_some hfind
    obtain ⟨life, hlife, hshows⟩ := h.shows target (List.mem_of_find?_eq_some hfind)
    rw [hid] at hlife
    split at hok
    · cases hok
    · rename_i htaken
      refine ⟨by rw [hlife]; rfl, fun life' hlife' => ?_⟩
      rw [hlife] at hlife'
      cases hlife'
      exact (isTaken_eq_false_iff hshows).mp (Bool.eq_false_iff.mpr htaken)

/-- A task that is open to the agent, with dependencies that are done, passes the gates. -/
theorem requireClaimable_ok {agentName : String} {c : Card}
    (hviews : ∀ includeArchived, ∃ views, getTaskViews env b includeArchived = .ok views ∧
      (ViewsAt env b.store lives' views ∨ ViewsAt env b.store lives views))
    (hlives : ∀ l, l = lives' ∨ l = lives → (l t).isSome = true ∧ OpenAt l t agentName ∧
      ∀ d ∈ c.dependencies, l d = some .done)
    (hc : b.store.fold env.env t = .ok (some c)) :
    requireClaimable env b agentName t = .ok () := by
  obtain ⟨views, hget, hat⟩ := hviews false
  obtain ⟨l, hl, hat⟩ : ∃ l, (l = lives' ∨ l = lives) ∧ ViewsAt env b.store l views :=
    hat.elim (fun h => ⟨_, .inl rfl, h⟩) fun h => ⟨_, .inr rfl, h⟩
  obtain ⟨hsome, hopen, -⟩ := hlives l hl
  obtain ⟨target, hmem, hid⟩ := hat.covers t hsome
  refine bind_eq_ok.mpr ⟨views, hget, ?_⟩
  cases hfind : views.find? fun v => v.taskId == t with
  | none => exact (List.find?_eq_none.mp hfind target hmem (beq_iff_eq.mpr hid)).elim
  | some v =>
    have hvid : v.taskId = t := by simpa using List.find?_some hfind
    have hvmem := List.mem_of_find?_eq_some hfind
    obtain ⟨life, hlife, hshows⟩ := hat.shows v hvmem
    have htaken : v.isTaken agentName = false :=
      (isTaken_eq_false_iff hshows).mpr (hopen life (hvid ▸ hlife))
    dsimp only
    rw [htaken, if_neg Bool.false_ne_true]
    split
    · rfl
    · obtain ⟨all, hall, hallAt⟩ := hviews true
      refine bind_eq_ok.mpr ⟨all, hall, ?_⟩
      have hcomplete : incompleteIn all v.dependencies = [] := by
        rw [hat.dependencies v hvmem c (hvid ▸ hc)]
        rcases hallAt with hallAt | hallAt
        · exact (incompleteIn_eq_nil_iff hallAt _).mpr (hlives _ (.inl rfl)).2.2
        · exact (incompleteIn_eq_nil_iff hallAt _).mpr (hlives _ (.inr rfl)).2.2
      rw [hcomplete]
      rfl

end SkCoord
