import SkCoord.CardStore.Equiv.CreateOnce
import SkCoord.CardStore.Equiv.FoldedGraph
import SkCoord.Coordination.Helper

/-!
# Live helpers have disjoint paths

`pathsOverlap_iff`: for literal paths the comparison of parts is that of the texts.  A
`HelperStep` is the validation of a call, the creation behind it, or whatever else happens to the
cards; `live_helpers_apart`: in every state that such steps reach, two live helpers of one parent
have paths of which none equals, contains or lies under one of the other.
-/

namespace SkCoord

open Python Python.Effect

/-! ### Literal paths -/

/-- Neither path equals, contains or lies under the other. -/
def Apart (v w : String) : Prop := v ≠ w ∧ ¬LiesUnder v w ∧ ¬LiesUnder w v

theorem literalPath_eq_ok {v : String} {p : List String} (h : literalPath v = .ok p) :
    IsLiteral v ∧ p = pathParts v := by
  unfold literalPath at h
  dsimp only at h
  split at h
  · cases h
  · rename_i hno
    simp only [Bool.or_eq_true, not_or, bne_iff_ne, ne_eq, not_not, beq_iff_eq,
      Bool.not_eq_true] at hno
    obtain ⟨⟨⟨⟨habs, hwritten⟩, hdot⟩, -⟩, -⟩ := hno
    exact ⟨⟨habs, hwritten, hdot⟩, (pure_eq_ok.mp h).symm⟩

/-- **The test of the parts is exact** for literal paths. -/
theorem pathsOverlap_iff {v w : String} (hv : IsLiteral v) (hw : IsLiteral w) :
    pathsOverlap (pathParts v) (pathParts w) = true ↔ ¬Apart v w := by
  rw [pathsOverlap, Bool.or_eq_true, Bool.or_eq_true, beq_iff_eq, List.contains_iff_mem,
    List.contains_iff_mem, mem_pathParents_iff hv hw, mem_pathParents_iff hw hv]
  by_cases hvw : v = w
  · subst hvw
    exact iff_of_true (.inl (.inl rfl)) fun h => h.1 rfl
  · -- different paths have different parts
    have hne : pathParts v ≠ pathParts w := by
      intro h
      rw [← hv.written, ← hw.written, h] at hvw
      exact hvw rfl
    rw [Apart, and_iff_left hne, and_iff_left hne.symm, or_iff_right hne, and_iff_right hvw,
      ← not_or, not_not]
    exact or_comm

/-! ### The paths of a helper -/

/-- The texts of `helper_allowed_paths`. -/
def allowedPaths (metaData : Dict) : List String :=
  match Dict.get metaData "helper_allowed_paths" with
  | .arr l => l.filterMap fun
    | .str s => some s
    | _ => none
  | _ => []

/-- `helper_parent_id`. -/
def helperParent (metaData : Dict) : Json := Dict.get metaData "helper_parent_id"

/-- No path of the one helper equals, contains or lies under a path of the other. -/
def PathsApart (d d' : Dict) : Prop :=
  ∀ v ∈ allowedPaths d, ∀ w ∈ allowedPaths d', Apart v w

theorem PathsApart.symm {d d' : Dict} (h : PathsApart d d') : PathsApart d' d :=
  fun w hw v hv =>
    let ⟨hne, hvw, hwv⟩ := h v hv w hw
    ⟨hne.symm, hwv, hvw⟩

theorem boundedTexts_eq_some {l : List Json} {texts : List String}
    (h : boundedTexts l = some texts) : l = texts.map .str := by
  induction l generalizing texts with
  | nil => cases h; rfl
  | cons v l ih =>
    cases v with
    | str s =>
      unfold boundedTexts at h
      split at h
      · cases h
      · obtain ⟨rest, hrest, rfl⟩ := Option.map_eq_some_iff.mp h
        rw [ih hrest]
        rfl
    | _ => cases h

/-- What `_paths` accepts: the allowed paths, which are literal. -/
theorem pathsOf_eq_ok {d : Dict} {paths : List (List String)}
    (h : pathsOf (Dict.get d "helper_allowed_paths") = .ok paths) :
    paths = (allowedPaths d).map pathParts ∧ ∀ v ∈ allowedPaths d, IsLiteral v := by
  obtain ⟨texts, htexts, h⟩ := bind_eq_ok.mp h
  have hallowed : allowedPaths d = texts := by
    unfold stringsOf at htexts
    unfold allowedPaths
    cases hv : Dict.get d "helper_allowed_paths" with
    | arr l =>
      rw [hv] at htexts
      dsimp only at htexts ⊢
      split at htexts
      · cases htexts
      · split at htexts
        · cases htexts
        · rename_i texts' htexts'
          split at htexts
          · rw [boundedTexts_eq_some htexts', ← pure_eq_ok.mp htexts, List.filterMap_map]
            exact List.filterMap_some
          · cases htexts
    | _ => rw [hv] at htexts; cases htexts
  rw [hallowed]
  refine ⟨map_of_mapM (fun v p hp => (literalPath_eq_ok hp).2) h, fun v hv => ?_⟩
  obtain ⟨p, -, hp⟩ := mapM_ok_of_mem h v hv
  exact (literalPath_eq_ok hp).1

/-! ### A call that is accepted -/

/-- A card that is done, archived or voided. -/
def Card.isFinished (c : Card) : Bool :=
  c.archived || (Dict.get c.metaData "voided").truthy || c.status == .done

/-- The helper is neither done nor archived nor voided. -/
def Store.Live (env : Env) (st : Store) (cardId : String) : Prop :=
  ∃ c, st.fold env cardId = .ok (some c) ∧ c.isFinished = false

/-- The helper is done, archived or voided. -/
def Store.Finished (env : Env) (st : Store) (cardId : String) : Prop :=
  ∃ c, st.fold env cardId = .ok (some c) ∧ c.isFinished = true

theorem Store.Finished.not_live {env : Env} {st : Store} {cardId : String}
    (h : st.Finished env cardId) : ¬st.Live env cardId := by
  obtain ⟨c, hc, hfinished⟩ := h
  rintro ⟨c', hc', hlive⟩
  cases hc.symm.trans hc'
  rw [hfinished] at hlive
  cases hlive

variable {env : HelperEnv} {st : Store} {task : Task} {digest actor parentId revision : String}

theorem requireContract_eq_ok {parent : Card}
    (h : env.requireContract parent task actor parentId revision = .ok ()) :
    helperParent task.metaData = .str parentId := by
  unfold HelperEnv.requireContract at h
  dsimp only at h
  split at h
  · cases h
  · split at h
    · cases h
    · split at h
      · cases h
      · split at h
        · split at h
          · cases h
          · split at h
            · cases h
            · split at h
              · cases h
              · rename_i hno
                simp only [Bool.or_eq_true, Bool.not_eq_true', not_or, Bool.not_eq_false] at hno
                exact (Json.pyEq_str_right_iff _ _).mp hno.1
        · cases h

/-- A turn of the last loop that does not raise leaves the task apart from a live helper. -/
theorem requireDisjoint_eq_ok {other : Card}
    (hliteral : ∀ v ∈ allowedPaths task.metaData, IsLiteral v)
    (h : requireDisjoint task parentId ((allowedPaths task.metaData).map pathParts) other = .ok ())
    (hid : other.id ≠ task.id) (hlive : other.isFinished = false)
    (hparent : helperParent other.metaData = .str parentId) :
    PathsApart task.metaData other.metaData := by
  simp only [Card.isFinished, Bool.or_eq_false_iff, beq_eq_false_iff_ne] at hlive
  obtain ⟨⟨harchived, hvoided⟩, hdone⟩ := hlive
  have hsame : (Dict.get other.metaData "helper_parent_id").pyEq (.str parentId) = true :=
    (Json.pyEq_str_right_iff _ _).mpr hparent
  unfold requireDisjoint at h
  rw [if_neg (by simp [hid, harchived, hvoided, hdone, hsame])] at h
  obtain ⟨otherPaths, hpaths, h⟩ := bind_eq_ok.mp h
  obtain ⟨rfl, hotherLiteral⟩ := pathsOf_eq_ok hpaths
  split at h
  · cases h
  · rename_i hno
    intro v hv w hw
    by_contra hover
    refine hno (List.any_eq_true.mpr ⟨_, List.mem_map_of_mem hv, List.any_eq_true.mpr
      ⟨_, List.mem_map_of_mem hw, ?_⟩⟩)
    exact (pathsOverlap_iff (hliteral v hv) (hotherLiteral w hw)).mpr hover

/-- A card with a core is among the listed ones, unless it is archived. -/
theorem mem_listCards {env : Env} {cards : List Card} (h : st.listCards env false = .ok cards)
    {cardId : String} {core : CardCore} (hcore : (st.dir cardId).core = .present core) :
    ∃ c, st.fold env cardId = .ok (some c) ∧ (c.archived = false → c ∈ cards) := by
  obtain ⟨ids, hids, h⟩ := bind_eq_ok.mp h
  obtain ⟨folded, hfolded, h⟩ := bind_eq_ok.mp h
  obtain ⟨card?, hmem, hfold⟩ :=
    mapM_ok_of_mem hfolded cardId (Store.mem_listCardIds_of_core hids hcore)
  cases card? with
  | none =>
    -- a core that is there is loaded
    obtain ⟨core?, hload, hrest⟩ := bind_eq_ok.mp hfold
    cases core? with
    | none =>
      rw [Store.loadCore_eq_none hload] at hcore
      cases hcore
    | some core' =>
      obtain ⟨s₀, -, hrest⟩ := bind_eq_ok.mp hrest
      obtain ⟨events, -, hrest⟩ := bind_eq_ok.mp hrest
      obtain ⟨s, -, hrest⟩ := bind_eq_ok.mp hrest
      cases hrest
  | some c =>
    refine ⟨c, hfold, fun harchived => ?_⟩
    rw [← pure_eq_ok.mp h, List.mem_filter, List.reduceOption, List.mem_filterMap]
    exact ⟨⟨some c, hmem, rfl⟩, by rw [harchived]; rfl⟩

/-- What a helper is born with: its parent, and literal paths. -/
structure IsHelper (parentId : String) (metaData : Dict) : Prop where
  parent : helperParent metaData = .str parentId
  literal : ∀ v ∈ allowedPaths metaData, IsLiteral v

/-- **An accepted call**: the task is a helper, and apart from every live helper of its parent. -/
theorem validateHelperRequest_eq_ok
    (h : env.validateHelperRequest st task digest actor parentId revision = .ok ()) :
    IsHelper parentId task.metaData ∧
      ∀ {cardId : String} {core : CardCore}, (st.dir cardId).core = .present core →
        core.id = cardId → cardId ≠ task.id → helperParent core.metaData = .str parentId →
        st.Finished env.env cardId ∨ PathsApart task.metaData core.metaData := by
  -- the checks of the parent come first
  obtain ⟨parent, -, h⟩ := bind_eq_ok.mp h
  obtain ⟨⟨⟩, -, h⟩ := bind_eq_ok.mp h
  obtain ⟨⟨⟩, hcontract, h⟩ := bind_eq_ok.mp h
  obtain ⟨⟨⟩, -, h⟩ := bind_eq_ok.mp h
  obtain ⟨⟨⟩, -, h⟩ := bind_eq_ok.mp h
  obtain ⟨⟨⟩, -, h⟩ := bind_eq_ok.mp h
  obtain ⟨⟨⟩, -, h⟩ := bind_eq_ok.mp h
  obtain ⟨paths, hpaths, h⟩ := bind_eq_ok.mp h
  obtain ⟨rfl, hliteral⟩ := pathsOf_eq_ok hpaths
  refine ⟨⟨requireContract_eq_ok hcontract, hliteral⟩, fun {_ core} hcore hid hne hparent => ?_⟩
  split at h
  · cases h
  · split at h
    · rename_i hnil
      refine .inr fun v hv => ?_
      rw [List.map_eq_nil_iff.mp hnil] at hv
      exact absurd hv List.not_mem_nil
    · -- the card is listed, so its paths were compared unless it is finished
      obtain ⟨cards, hcards, h⟩ := bind_eq_ok.mp h
      obtain ⟨units, hunits, -⟩ := bind_eq_ok.mp h
      obtain ⟨c, hfold, hmem⟩ := mem_listCards hcards hcore
      cases hfinished : c.isFinished with
      | true => exact .inl ⟨c, hfold, hfinished⟩
      | false =>
        have hbirth := Store.fold_metaData hcore hfold
        have harchived : c.archived = false := by
          simp only [Card.isFinished, Bool.or_eq_false_iff] at hfinished
          exact hfinished.1.1
        obtain ⟨⟨⟩, -, hdisjoint⟩ := mapM_ok_of_mem hunits c (hmem harchived)
        obtain ⟨core', hcore', hcid⟩ := Store.fold_core hfold
        cases hcore.symm.trans hcore'
        have hparent' : helperParent c.metaData = .str parentId :=
          (hbirth "helper_parent_id" (by decide)).trans hparent
        have hpaths' : allowedPaths c.metaData = allowedPaths core.metaData := by
          unfold allowedPaths
          rw [hbirth "helper_allowed_paths" (by decide)]
        have hcne : c.id ≠ task.id := by
          rw [hcid, hid]
          exact hne
        have hapart := requireDisjoint_eq_ok hliteral hdisjoint hcne hfinished hparent'
        refine .inr fun v hv w hw => hapart v hv w ?_
        rw [hpaths']
        exact hw

/-! ### Runs -/

/-- The state of a run: the helpers that calls of the run have created, and those of them that were
done, archived or voided in a state that the run has passed. -/
structure HelperRun where
  home : HelperHome
  /-- The call that is behind its validation and holds the locks. -/
  inFlight : Option HelperCall := none
  created : List String := []
  ended : String → Prop := fun _ => False

namespace HelperRun

variable (env : HelperEnv)

/-- The store of a state. -/
def store (r : HelperRun) : Store := r.home.creation.store

/-- The run with another home. -/
def moved (r : HelperRun) (home : HelperHome) (created : List String) : HelperRun :=
  { home := home
    created := created
    ended := fun id => r.ended id ∨ id ∈ created ∧ home.creation.store.Finished env.env id }

/-- The home behind the creation of a validated call. -/
def homeBehind (r : HelperRun) (call : HelperCall) (plan : HelperPlan) : HelperHome :=
  ((env.createExplicitTaskUnlocked plan call.task call.digest call.actor).run r.home).2

/-- A creation; the helper is created where its core was not there before. -/
def creating (r : HelperRun) (call : HelperCall) (plan : HelperPlan) : HelperRun :=
  let home := r.homeBehind env call plan
  if (r.store.dir call.task.id).core.exists = false ∧
      (home.creation.store.dir call.task.id).core.exists = true then
    r.moved env home (call.task.id :: r.created)
  else r.moved env home r.created

theorem inFlight_creating {env : HelperEnv} {r : HelperRun} {call : HelperCall}
    {plan : HelperPlan} : (r.creating env call plan).inFlight = none := by
  unfold creating
  dsimp only
  split <;> rfl

end HelperRun

/-- Every core that is present in the one store is in the other. -/
def Store.KeepsCores (st st' : Store) : Prop :=
  ∀ id core, (st.dir id).core = .present core → (st'.dir id).core = .present core

/-- One step of a run. -/
inductive HelperStep (env : HelperEnv) : HelperRun → HelperRun → Prop where
  /-- A call is accepted, under the locks of the board and of the parent. -/
  | validates {r : HelperRun} (call : HelperCall) (hidle : r.inFlight = none)
      (hok : env.validateCall r.store call = .ok ()) :
      HelperStep env r { r with inFlight := some call }
  /-- The accepted call creates its card, or replays a creation, with any faults. -/
  | creates {r : HelperRun} (call : HelperCall) (plan : HelperPlan)
      (hcall : r.inFlight = some call) : HelperStep env r (r.creating env call plan)
  /-- Anything else happens to the cards, but cores stay and no helper comes back. -/
  | events {r : HelperRun} (home : HelperHome)
      (hcores : r.store.KeepsCores home.creation.store)
      (hback : ∀ id ∈ r.created, r.ended id → ¬home.creation.store.Live env.env id) :
      HelperStep env r { r.moved env home r.created with inFlight := r.inFlight }

/-- A state that steps lead to, from any home. -/
def HelperReached (env : HelperEnv) (r : HelperRun) : Prop :=
  ∃ home, Relation.ReflTransGen (HelperStep env) { home := home } r

/-- What holds in every state of a run: helpers keep the cores they were born with, finished ones
stay so, and any two others of one parent have paths apart; so does the call in flight. -/
structure HelperRun.Inv (env : HelperEnv) (r : HelperRun) : Prop where
  born : ∀ id ∈ r.created, ∃ core parentId, (r.store.dir id).core = .present core ∧ core.id = id ∧
    IsHelper parentId core.metaData
  seen : ∀ id ∈ r.created, r.store.Finished env.env id → r.ended id
  known : ∀ id, r.ended id → id ∈ r.created
  gone : ∀ id, r.ended id → ¬r.store.Live env.env id
  apart : ∀ {a b : String} {ca cb : CardCore}, a ∈ r.created → b ∈ r.created → a ≠ b →
    (r.store.dir a).core = .present ca → (r.store.dir b).core = .present cb →
    helperParent ca.metaData = helperParent cb.metaData →
    r.ended a ∨ r.ended b ∨ PathsApart ca.metaData cb.metaData
  flight : ∀ {call : HelperCall}, r.inFlight = some call →
    (∃ parentId, IsHelper parentId call.task.metaData) ∧
      ∀ {b : String} {cb : CardCore}, b ∈ r.created → b ≠ call.task.id →
        (r.store.dir b).core = .present cb →
        helperParent cb.metaData = helperParent call.task.metaData →
        r.ended b ∨ PathsApart call.task.metaData cb.metaData

/-! ### The creation in the store -/

theorem publishCore_idem (st : Store) (core : CardCore) :
    (st.publishCore core).publishCore core = st.publishCore core := by
  by_cases h : (st.dir core.id).core.exists = true
  · have hst : st.publishCore core = st := if_pos h
    rw [hst, hst]
  · have hst : st.publishCore core = st.setCore core := if_neg h
    rw [hst]
    refine if_pos ?_
    rw [Store.dir_setCore_self]
    rfl

theorem dir_publishCore_of_exists {core : CardCore} {id : String}
    (h : (st.dir id).core.exists = true) : (st.publishCore core).dir id = st.dir id := by
  unfold Store.publishCore
  split
  · rfl
  · rename_i hno
    exact Store.dir_setCore_of_ne _ fun heq => hno (heq ▸ h)

theorem legacy_publishCore (core : CardCore) : (st.publishCore core).legacy = st.legacy := by
  unfold Store.publishCore
  split <;> rfl

/-- The store behind an explicit creation. -/
def CreationState.Published (st : Store) (core : CardCore) (t : CreationState) : Prop :=
  t.store = st ∨ t.store = st.publishCore core

theorem stable_published (st : Store) (core : CardCore) :
    CreationState.Stable core (CreationState.Published st core) where
  pending _ hs := hs
  append _ hs := hs
  tear _ _ hs := hs
  publish {s} hs := by
    refine .inr ?_
    show s.store.publishCore core = _
    rcases hs with hs | hs
    · rw [hs]
    · rw [hs, publishCore_idem]

theorem keeps_createExplicitTaskUnlocked {I : CreationState → Prop} {plan : HelperPlan}
    (hI : CreationState.Stable (task.core env.tables) I) :
    Keeps (fun s : HelperHome => I s.creation)
      (env.createExplicitTaskUnlocked plan task digest actor) := by
  have hcreate : Keeps (fun s : HelperHome => I s.creation) (HelperEnv.onCreation
      (createExplicit env.creation plan.create (task.core env.tables) digest actor)) :=
    fun s hs => keeps_createExplicit hI s.creation hs
  unfold HelperEnv.createExplicitTaskUnlocked
  refine hcreate.bind fun created => keeps_get.bind fun s => ?_
  split
  · refine Keeps.bind ?_ fun _ => keeps_raise _
    split
    · exact fun _ hs => hs
    · exact keeps_pure _
  · exact keeps_raise _
  · split
    · exact keeps_pure _
    · exact keeps_raise _
  · refine Keeps.bind ?_ fun _ => keeps_pure _
    exact keeps_io (fun _ hs => hs) fun _ _ hs => hs

/-- A creation publishes the core of its task, or nothing. -/
theorem published_homeBehind (env : HelperEnv) (r : HelperRun) (call : HelperCall) (plan : HelperPlan) :
    CreationState.Published r.store (call.task.core env.tables)
      (r.homeBehind env call plan).creation :=
  keeps_createExplicitTaskUnlocked (stable_published _ _) r.home (.inl rfl)

/-- A creation leaves the directories that hold a core, and the overlay. -/
theorem dir_homeBehind (env : HelperEnv) {r : HelperRun} (call : HelperCall) (plan : HelperPlan)
    {id : String} (h : (r.store.dir id).core.exists = true) :
    (r.homeBehind env call plan).creation.store.dir id = r.store.dir id ∧
      (r.homeBehind env call plan).creation.store.legacy = r.store.legacy := by
  rcases published_homeBehind env r call plan with hs | hs
  · rw [hs]
    exact ⟨rfl, rfl⟩
  · rw [hs]
    exact ⟨dir_publishCore_of_exists h, legacy_publishCore _⟩

/-! ### The invariant -/

namespace HelperRun

variable {r : HelperRun}

theorem exists_of_created (hinv : r.Inv env) {id : String} (h : id ∈ r.created) :
    (r.store.dir id).core.exists = true := by
  obtain ⟨core, -, hcore, -⟩ := hinv.born id h
  rw [hcore]
  rfl

/-- A present core is the same behind a step that keeps the cores. -/
theorem core_of_kept (hinv : r.Inv env) {st' : Store} (hcores : r.store.KeepsCores st')
    {id : String} (h : id ∈ r.created) {core : CardCore}
    (hcore : (st'.dir id).core = .present core) : (r.store.dir id).core = .present core := by
  obtain ⟨core', -, hcore', -⟩ := hinv.born id h
  cases hcore.symm.trans (hcores id core' hcore')
  exact hcore'

/-- **A step that creates no helper** and brings none back keeps the invariant. -/
theorem Inv.moved (hinv : r.Inv env) {home : HelperHome} {inFlight : Option HelperCall}
    (hcores : r.store.KeepsCores home.creation.store)
    (hback : ∀ id ∈ r.created, r.ended id → ¬home.creation.store.Live env.env id)
    (hflight : ∀ call, inFlight = some call → r.inFlight = some call) :
    ({ r.moved env home r.created with inFlight := inFlight } : HelperRun).Inv env where
  born id hid := by
    obtain ⟨core, parentId, hcore, hborn⟩ := hinv.born id hid
    exact ⟨core, parentId, hcores id core hcore, hborn⟩
  seen id hid hfinished := .inr ⟨hid, hfinished⟩
  known id hended := by
    rcases hended with hended | ⟨hid, -⟩
    · exact hinv.known id hended
    · exact hid
  gone id hended := by
    rcases hended with hended | ⟨-, hfinished⟩
    · exact hback id (hinv.known id hended) hended
    · exact hfinished.not_live
  apart ha hb hne hca hcb hparent := by
    rcases hinv.apart ha hb hne (core_of_kept hinv hcores ha hca)
      (core_of_kept hinv hcores hb hcb) hparent with h | h | h
    · exact .inl (.inl h)
    · exact .inr (.inl (.inl h))
    · exact .inr (.inr h)
  flight hcall := by
    obtain ⟨hborn, hothers⟩ := hinv.flight (hflight _ hcall)
    refine ⟨hborn, fun hb hne hcb hparent => ?_⟩
    rcases hothers hb hne (core_of_kept hinv hcores hb hcb) hparent with h | h
    · exact .inl (.inl h)
    · exact .inr h

theorem keepsCores_homeBehind (env : HelperEnv) (r : HelperRun) (call : HelperCall)
    (plan : HelperPlan) : r.store.KeepsCores (r.homeBehind env call plan).creation.store := by
  intro id core hcore
  rw [(dir_homeBehind env call plan (by rw [hcore]; rfl)).1]
  exact hcore

/-- A creation does not change how a created helper folds. -/
theorem not_live_homeBehind (hinv : r.Inv env) (call : HelperCall) (plan : HelperPlan)
    {id : String} (hid : id ∈ r.created) (hended : r.ended id) :
    ¬(r.homeBehind env call plan).creation.store.Live env.env id := by
  obtain ⟨hdir, hlegacy⟩ := dir_homeBehind env call plan (exists_of_created hinv hid)
  rintro ⟨c, hc, hlive⟩
  rw [Store.fold_congr hdir hlegacy] at hc
  exact hinv.gone id hended ⟨c, hc, hlive⟩

/-- **A creation** keeps the invariant. -/
theorem Inv.creating (hinv : r.Inv env) {call : HelperCall} {plan : HelperPlan}
    (hcall : r.inFlight = some call) : (r.creating env call plan).Inv env := by
  have hcores := keepsCores_homeBehind env r call plan
  have hback : ∀ id ∈ r.created, r.ended id →
      ¬(r.homeBehind env call plan).creation.store.Live env.env id :=
    fun id hid hended => not_live_homeBehind hinv call plan hid hended
  unfold HelperRun.creating
  dsimp only
  split
  · rename_i hnew
    obtain ⟨habsent, hpresent⟩ := hnew
    obtain ⟨⟨parentId, hhelper⟩, hothers⟩ := hinv.flight hcall
    -- the core that is there now is the one of the task
    have hpublished : (r.homeBehind env call plan).creation.store =
        r.store.publishCore (call.task.core env.tables) := by
      rcases published_homeBehind env r call plan with hs | hs
      · rw [hs, habsent] at hpresent
        cases hpresent
      · exact hs
    have hcore : ((r.homeBehind env call plan).creation.store.dir call.task.id).core =
        .present (call.task.core env.tables) := by
      rw [hpublished, Store.publishCore]
      have hno : ¬(r.store.dir (call.task.core env.tables).id).core.exists = true := by
        show ¬(r.store.dir call.task.id).core.exists = true
        rw [habsent]
        exact Bool.false_ne_true
      rw [if_neg hno]
      show ((r.store.setCore _).dir (call.task.core env.tables).id).core = _
      rw [Store.dir_setCore_self]
    have hne : ∀ id ∈ r.created, id ≠ call.task.id := by
      rintro id hid rfl
      rw [exists_of_created hinv hid] at habsent
      cases habsent
    have hnew : ∀ {b : String} {cb : CardCore}, b ∈ r.created →
        ((r.homeBehind env call plan).creation.store.dir b).core = .present cb →
        helperParent cb.metaData = helperParent call.task.metaData →
        r.ended b ∨ PathsApart call.task.metaData cb.metaData := fun hb hcb hparent =>
      hothers hb (hne _ hb) (core_of_kept hinv hcores hb hcb) hparent
    constructor
    · intro id hid
      rcases List.mem_cons.mp hid with rfl | hid
      · exact ⟨_, parentId, hcore, rfl, hhelper⟩
      · obtain ⟨core, parentId', hcore', hborn⟩ := hinv.born id hid
        exact ⟨core, parentId', hcores id core hcore', hborn⟩
    · exact fun id hid hfinished => .inr ⟨hid, hfinished⟩
    · rintro id (hended | ⟨hid, -⟩)
      · exact List.mem_cons_of_mem _ (hinv.known id hended)
      · exact hid
    · rintro id (hended | ⟨-, hfinished⟩)
      · exact hback id (hinv.known id hended) hended
      · exact hfinished.not_live
    · intro a b ca cb ha hb hab hca hcb hparent
      rcases List.mem_cons.mp ha with rfl | ha <;> rcases List.mem_cons.mp hb with rfl | hb
      · exact absurd rfl hab
      · cases hcore.symm.trans hca
        rcases hnew hb hcb hparent.symm with h | h
        · exact .inr (.inl (.inl h))
        · exact .inr (.inr h)
      · cases hcore.symm.trans hcb
        rcases hnew ha hca hparent with h | h
        · exact .inl (.inl h)
        · exact .inr (.inr h.symm)
      · rcases hinv.apart ha hb hab (core_of_kept hinv hcores ha hca)
          (core_of_kept hinv hcores hb hcb) hparent with h | h | h
        · exact .inl (.inl h)
        · exact .inr (.inl (.inl h))
        · exact .inr (.inr h)
    · intro call' hcall'
      cases hcall'
  · exact hinv.moved hcores hback nofun

end HelperRun

/-! ### Every run -/

/-- **One step** keeps the invariant. -/
theorem HelperStep.inv {r r' : HelperRun} (h : HelperStep env r r') (hinv : r.Inv env) :
    r'.Inv env := by
  cases h with
  | validates call hidle hok =>
    refine ⟨hinv.born, hinv.seen, hinv.known, hinv.gone, hinv.apart, ?_⟩
    intro call' hcall'
    cases hcall'
    obtain ⟨⟨⟩, -, hvalid⟩ := bind_eq_ok.mp hok
    obtain ⟨hhelper, hothers⟩ := validateHelperRequest_eq_ok hvalid
    refine ⟨⟨call.parentId, hhelper⟩, fun {b _} hb hne hcb hparent => ?_⟩
    obtain ⟨core, -, hcore, hid, -⟩ := hinv.born b hb
    cases hcb.symm.trans hcore
    rcases hothers hcb hid hne (hparent.trans hhelper.parent) with h | h
    · exact .inl (hinv.seen b hb h)
    · exact .inr h
  | creates call plan hcall => exact hinv.creating hcall
  | events home hcores hback => exact hinv.moved hcores hback fun _ h => h

/-- **Every state of a run** has the invariant. -/
theorem HelperReached.inv {r : HelperRun} (h : HelperReached env r) : r.Inv env := by
  obtain ⟨home, h⟩ := h
  induction h with
  | refl =>
    refine ⟨?_, ?_, fun _ h => h.elim, fun _ h => h.elim, ?_, nofun⟩
    · exact fun _ h => absurd h List.not_mem_nil
    · exact fun _ h => absurd h List.not_mem_nil
    · exact fun ha => absurd ha List.not_mem_nil
  | tail _ hstep ih => exact hstep.inv ih

theorem home_creating (r : HelperRun) (call : HelperCall) (plan : HelperPlan) :
    (r.creating env call plan).home = r.homeBehind env call plan := by
  unfold HelperRun.creating
  dsimp only
  split <;> rfl

/-- **A call of `create_helper_task`** is steps of a run, whether it is accepted, replayed or
refused. -/
theorem steps_createHelperTask {r : HelperRun} (hidle : r.inFlight = none) (plan : HelperPlan)
    (call : HelperCall) : ∃ r', Relation.ReflTransGen (HelperStep env) r r' ∧
      r'.home = ((env.createHelperTask plan call).run r.home).2 := by
  have hrun : (env.createHelperTask plan call).run r.home =
      match env.validateCall r.store call with
      | .ok _ => (env.createExplicitTaskUnlocked plan call.task call.digest call.actor).run r.home
      | .error e => (.error e, r.home) := by
    unfold HelperEnv.createHelperTask
    rw [run_get_bind, run_lift_bind, HelperRun.store]
    cases env.validateCall r.home.creation.store call <;> rfl
  rw [hrun]
  cases hok : env.validateCall r.store call with
  | error e => exact ⟨r, .refl, rfl⟩
  | ok u =>
    have hvalid := HelperStep.validates call hidle hok
    exact ⟨_, (Relation.ReflTransGen.single hvalid).tail (.creates call plan rfl),
      home_creating _ _ _⟩

/-- **Live helpers never share a write path**: in every state of a run, two helpers of one parent
that calls of the run have created, and that are not done, archived or voided, have lists of paths
in which no path equals, contains or lies under a path of the other. -/
theorem live_helpers_apart {r : HelperRun} (h : HelperReached env r) {a b : String} {ca cb : Card}
    (ha : a ∈ r.created) (hb : b ∈ r.created) (hab : a ≠ b)
    (hca : r.store.fold env.env a = .ok (some ca)) (hcb : r.store.fold env.env b = .ok (some cb))
    (hlive : ca.isFinished = false) (hlive' : cb.isFinished = false)
    (hparent : helperParent ca.metaData = helperParent cb.metaData) :
    PathsApart ca.metaData cb.metaData := by
  have hinv := h.inv
  obtain ⟨core, -, hcore, -⟩ := hinv.born a ha
  obtain ⟨core', -, hcore', -⟩ := hinv.born b hb
  have hbirth := Store.fold_metaData hcore hca
  have hbirth₂ := Store.fold_metaData hcore' hcb
  have hpaths : allowedPaths ca.metaData = allowedPaths core.metaData := by
    unfold allowedPaths
    rw [hbirth "helper_allowed_paths" (by decide)]
  have hpaths' : allowedPaths cb.metaData = allowedPaths core'.metaData := by
    unfold allowedPaths
    rw [hbirth₂ "helper_allowed_paths" (by decide)]
  have hparents : helperParent core.metaData = helperParent core'.metaData := by
    unfold helperParent at hparent ⊢
    rw [← hbirth "helper_parent_id" (by decide), ← hbirth₂ "helper_parent_id" (by decide)]
    exact hparent
  rcases hinv.apart ha hb hab hcore hcore' hparents with h | h | h
  · exact absurd ⟨ca, hca, hlive⟩ (hinv.gone a h)
  · exact absurd ⟨cb, hcb, hlive'⟩ (hinv.gone b h)
  · intro v hv w hw
    rw [hpaths] at hv
    rw [hpaths'] at hw
    exact h v hv w hw

/-! ### Two helpers of one parent -/

/-- The digests of the texts below. -/
def helperSha256 (s : List Char) : String :=
  match s.length with
  | 55 => "7f053e1ac0b7fb8fbcba2db556283993898b104c07c66f3d7aafb161a1e58695"
  | 630 => "c7807d1a6f1a132661ee1c07b6154f8557fc02eb069d5a97f23a8fd6954e23ba"
  | 631 => "117a8580563d116c8a83f783206ff536d1f0ced7551aa6bf8acb2baa10841fcb"
  | _ =>
    if s.getLast? = some '1' then
      "145ddb6b7ae204f4fb728b5ec071f2d83bfaa4b1ac2ac34b1f92877a7e1cbc14"
    else "d511f6b77169b51fb89e942e10c33f8da796e413a686cd2e309ff9c7001f0307"

/-- The environment of the helpers below. -/
def siblingsEnv : HelperEnv where
  creation := titledEnv
  tables := asciiTables
  floats := zeroFloats
  sha256 := helperSha256
  urlsplit := fun _ => pure { scheme := "https", hostname := some "h" }

/-- The source of the parent. -/
def parentSource : Dict :=
  [("repository", .str "https://h/r"), ("base_ref", .str "main"),
    ("base_revision", .str "0123456789abcdef0123456789abcdef01234567")]

/-- The home of a parent that Alice has claimed. -/
def parentHome : HelperHome where
  creation.store := Store.publishCore {}
    { id := "p1", title := "T", createdBy := "alice", createdAt := "2026",
      initialOwner := some "alice", initialClaimRevision := some "rev", metaData := parentSource }

/-- Alice's call for a helper that writes one path. -/
def helperCall (id requestId path digest : String) : HelperCall where
  task :=
    { id := id, title := "[S] t", tags := ["source-only", "owner-helper", "parent-p1", "sk-s"],
      createdBy := "alice", createdAt := "2026", acceptanceCriteria := ["x"],
      metaData := parentSource ++
        [("helper_request_id", .str requestId), ("helper_parent_id", .str "p1"),
          ("helper_parent_claim_revision", .str "rev"), ("helper_objective", .str "o"),
          ("helper_allowed_paths", .arr [.str path]), ("helper_verification", .arr [.str "v"]),
          ("helper_parent_contract_sha256",
            .str "7f053e1ac0b7fb8fbcba2db556283993898b104c07c66f3d7aafb161a1e58695"),
          ("logical_route", .str "sk-s")] }
  digest := digest
  actor := "alice"
  parentId := "p1"
  expectedClaimRevision := "rev"

/-- The call for `src/a`. -/
def callA : HelperCall :=
  helperCall "145ddb6b" "r1" "src/a"
    "c7807d1a6f1a132661ee1c07b6154f8557fc02eb069d5a97f23a8fd6954e23ba"

/-- The call for `src/bb`. -/
def callB : HelperCall :=
  helperCall "d511f6b7" "r2" "src/bb"
    "117a8580563d116c8a83f783206ff536d1f0ced7551aa6bf8acb2baa10841fcb"

/-- The run of the first call. -/
def firstHelper : HelperRun :=
  HelperRun.creating siblingsEnv { home := parentHome, inFlight := some callA } callA {}

/-- The run of both calls. -/
def siblings : HelperRun :=
  HelperRun.creating siblingsEnv { firstHelper with inFlight := some callB } callB {}

/-- What the run shows of a live helper. -/
def sibling (id : String) : Option (Bool × Bool × List String) :=
  (siblings.store.fold siblingsEnv.env id).toOption.join.map fun c =>
    (c.isFinished, (helperParent c.metaData).pyEq (.str "p1"), allowedPaths c.metaData)

/-- Both calls are accepted, and both helpers are live. -/
theorem siblings_run :
    (siblingsEnv.validateCall parentHome.creation.store callA).toOption.isSome ∧
      (siblingsEnv.validateCall firstHelper.store callB).toOption.isSome ∧
      siblings.created = ["d511f6b7", "145ddb6b"] ∧
      sibling "145ddb6b" = some (false, true, ["src/a"]) ∧
      sibling "d511f6b7" = some (false, true, ["src/bb"]) := by
  refine ⟨?_, ?_, ?_, ?_, ?_⟩
  all_goals decide +kernel

theorem sibling_eq_some {id : String} {paths : List String}
    (h : sibling id = some (false, true, paths)) :
    ∃ c, siblings.store.fold siblingsEnv.env id = .ok (some c) ∧ c.isFinished = false ∧
      helperParent c.metaData = .str "p1" ∧ allowedPaths c.metaData = paths := by
  obtain ⟨c, hc, h⟩ := Option.map_eq_some_iff.mp h
  obtain ⟨hfinished, h⟩ := Prod.mk.inj h
  obtain ⟨hparent, hpaths⟩ := Prod.mk.inj h
  rw [Option.join_eq_some_iff, toOption_eq_some] at hc
  exact ⟨c, hc, hfinished, (Json.pyEq_str_right_iff _ _).mp hparent, hpaths⟩

/-- The run of both calls. -/
theorem reached_siblings : HelperReached siblingsEnv siblings := by
  obtain ⟨hA, hB, -⟩ := siblings_run
  have hok : ∀ {x : Except PyError Unit}, x.toOption.isSome → x = .ok () := by
    intro x hx
    obtain ⟨⟨⟩, hx⟩ := Option.isSome_iff_exists.mp hx
    exact toOption_eq_some.mp hx
  refine ⟨parentHome, ?_⟩
  have h := Relation.ReflTransGen.refl (r := HelperStep siblingsEnv) (a := { home := parentHome })
  have h := h.tail (.validates callA rfl (hok hA))
  have h := h.tail (.creates callA {} rfl)
  have h := h.tail (.validates callB HelperRun.inFlight_creating (hok hB))
  exact h.tail (.creates callB {} rfl)

/-- Two live helpers of `p1`. -/
theorem live_helpers_apart_siblings :
    ∃ ca cb, siblings.store.fold siblingsEnv.env "145ddb6b" = .ok (some ca) ∧
      siblings.store.fold siblingsEnv.env "d511f6b7" = .ok (some cb) ∧
      allowedPaths ca.metaData = ["src/a"] ∧ allowedPaths cb.metaData = ["src/bb"] ∧
      PathsApart ca.metaData cb.metaData := by
  obtain ⟨-, -, hcreated, hA, hB⟩ := siblings_run
  obtain ⟨ca, hca, hlive, hparent, hpaths⟩ := sibling_eq_some hA
  obtain ⟨cb, hcb, hlive', hparent', hpaths'⟩ := sibling_eq_some hB
  refine ⟨ca, cb, hca, hcb, hpaths, hpaths', ?_⟩
  exact live_helpers_apart reached_siblings (by rw [hcreated]; decide) (by rw [hcreated]; decide)
    (by decide) hca hcb hlive hlive' (hparent.trans hparent'.symm)

end SkCoord
