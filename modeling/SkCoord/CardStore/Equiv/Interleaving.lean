import SkCoord.CardStore.Interleaving

/-!
# The graph under overlapping calls

* `overlapping_amendments`: two amendments of two cards pass their checks before either of them
  writes, and leave a cycle.
* `acyclic_of_undisturbed`: every run in which no other call writes between the check of a call and
  its own write keeps the graph acyclic, in whatever order the other steps of the calls come.

A call in flight has passed its check at a step of the run, and where nothing was written since then
the check still holds of the store (`InFlight.History`, kept by every step).  The step lemmas say
which edges a write adds (`depends_amendAppend`, `depends_publishCore`); the rest is
`DirectedGraph.Acyclic.insert`.
-/

namespace SkCoord

open Python DirectedGraph

namespace InFlight

variable {env : Env} {tasks : List String} {s t : InFlight}

theorem appendAmendment_acyclic {a : Amendment} {stamp : Stamp}
    (h : s.appendAmendment env a stamp = .ok t)
    (hcheck : s.store.CheckPasses env a.cardId a.dependencyId)
    (hs : Acyclic (s.store.Depends env)) : Acyclic (t.store.Depends env) := by
  unfold appendAmendment at h
  split at h
  · split at h
    · rename_i st' e happ
      rw [pure_eq_ok] at h
      subst h
      refine Acyclic.insert (c := a.cardId) ?_ hs
      intro x y hxy
      rcases Store.depends_amendAppend happ hxy with hold | ⟨hx, hy⟩
      · exact Or.inl hold
      · exact Or.inr ⟨hx, hy ▸ Store.not_reach_of_checkPasses s.wf hcheck⟩
    · rw [pure_eq_ok] at h
      subst h
      exact hs
  · cases h

theorem publishCreation_acyclic (h : s.publishCreation = .ok t)
    (hcheck : ∀ core, s.creating = some core →
      ∀ d ∈ core.dependencies, s.store.CheckPasses env core.id d)
    (hs : Acyclic (s.store.Depends env)) : Acyclic (t.store.Depends env) := by
  unfold publishCreation at h
  split at h
  · rename_i core hcore
    rw [pure_eq_ok] at h
    subst h
    refine Acyclic.insert (c := core.id) ?_ hs
    intro x y hxy
    rcases Store.depends_publishCore s.wf hxy with hold | ⟨hx, hy⟩
    · exact Or.inl hold
    · exact Or.inr ⟨hx, Store.not_reach_of_checkPasses s.wf (hcheck core hcore y hy)⟩
  · cases h

/-! ### What a call in flight has checked -/

/-- The check of the amendment is the last one of it in `past`, and it holds of the store if no call
wrote behind it. -/
def AmendmentChecked (env : Env) (past : List CallStep) (st : Store) (a : Amendment) : Prop :=
  ∃ p q, past = p ++ .checkAmendment a :: q ∧ .checkAmendment a ∉ q ∧
    ((∀ act ∈ q, ¬act.IsWrite) → st.CheckPasses env a.cardId a.dependencyId)

/-- The check of the creation is the last one of a creation in `past`, and it holds of the store if
no call wrote behind it. -/
def CreationChecked (env : Env) (past : List CallStep) (st : Store) (core : CardCore) : Prop :=
  ∃ p q, past = p ++ .checkCreation core :: q ∧ (∀ core', .checkCreation core' ∉ q) ∧
    ((∀ act ∈ q, ¬act.IsWrite) → ∀ d ∈ core.dependencies, st.CheckPasses env core.id d)

/-- What the steps so far say about the calls in flight: a call that has passed its check did so on
the graph as it is but for its own write. -/
structure History (env : Env) (past : List CallStep) (s : InFlight) : Prop where
  amending : ∀ a ∈ s.amending, AmendmentChecked env past s.store a
  creating : ∀ core, s.creating = some core → CreationChecked env past s.store core

section

variable {past : List CallStep} {act : CallStep} {a : Amendment} {core : CardCore} {st st' : Store}

/-- A step that writes nothing and is no check of the amendment. -/
theorem AmendmentChecked.keep (h : AmendmentChecked env past st a)
    (hne : act ≠ .checkAmendment a) : AmendmentChecked env (past ++ [act]) st a := by
  obtain ⟨p, q, rfl, hlast, hcheck⟩ := h
  refine ⟨p, q ++ [act], by simp, ?_, fun hq => hcheck fun b hb => hq b (by simp [hb])⟩
  rw [List.mem_append, List.mem_singleton]
  rintro (hmem | rfl)
  · exact hlast hmem
  · exact hne rfl

/-- A write is behind the check. -/
theorem AmendmentChecked.write (h : AmendmentChecked env past st a) (hwrite : act.IsWrite) :
    AmendmentChecked env (past ++ [act]) st' a := by
  obtain ⟨p, q, rfl, hlast, -⟩ := h
  refine ⟨p, q ++ [act], by simp, ?_, fun hq => absurd hwrite (hq act (by simp))⟩
  rw [List.mem_append, List.mem_singleton]
  rintro (hmem | rfl)
  · exact hlast hmem
  · exact hwrite

/-- A step that writes nothing and is no check of a creation. -/
theorem CreationChecked.keep (h : CreationChecked env past st core)
    (hne : ∀ core', act ≠ .checkCreation core') : CreationChecked env (past ++ [act]) st core := by
  obtain ⟨p, q, rfl, hlast, hcheck⟩ := h
  refine ⟨p, q ++ [act], by simp, fun core' => ?_, fun hq => hcheck fun b hb => hq b (by simp [hb])⟩
  rw [List.mem_append, List.mem_singleton]
  rintro (hmem | rfl)
  · exact hlast core' hmem
  · exact hne core' rfl

/-- A write is behind the check. -/
theorem CreationChecked.write (h : CreationChecked env past st core) (hwrite : act.IsWrite) :
    CreationChecked env (past ++ [act]) st' core := by
  obtain ⟨p, q, rfl, hlast, -⟩ := h
  refine ⟨p, q ++ [act], by simp, fun core' => ?_, fun hq => absurd hwrite (hq act (by simp))⟩
  rw [List.mem_append, List.mem_singleton]
  rintro (hmem | rfl)
  · exact hlast core' hmem
  · exact hwrite

end

/-- `amend_dependency` checks the new dependency against the graph. -/
theorem checkPasses_of_amendCheck {st : Store} {a : Amendment}
    (h : st.amendCheck env a = .ok true) : st.CheckPasses env a.cardId a.dependencyId := by
  unfold Store.amendCheck at h
  obtain ⟨dependencies, -, h⟩ := bind_eq_ok.mp h
  split at h
  · cases h
  · obtain ⟨edges, hedges, h⟩ := bind_eq_ok.mp h
    refine ⟨edges, hedges, ?_⟩
    split at h
    · cases h
    · rename_i hno
      exact Bool.eq_false_iff.mpr hno

/-- `create` checks every dependency of the new core against the graph. -/
theorem checkPasses_of_governDependencies {st : Store} {core : CardCore}
    (h : st.governDependencies env core = .ok ()) :
    ∀ d ∈ core.dependencies, st.CheckPasses env core.id d := by
  unfold Store.governDependencies at h
  split at h
  · rename_i hnone
    rw [List.isEmpty_iff.mp hnone]
    exact fun d hd => (List.not_mem_nil hd).elim
  · obtain ⟨edges, hedges, h⟩ := bind_eq_ok.mp h
    intro d hd
    have hd := forM_eq_ok.mp h d hd
    refine ⟨edges, hedges, ?_⟩
    split at hd
    · cases hd
    · rename_i hno
      exact Bool.eq_false_iff.mpr hno

variable {past : List CallStep} {act : CallStep}

theorem History.checkAmendment {a : Amendment} (hs : History env past s)
    (h : s.checkAmendment env tasks a = .ok t) :
    History env (past ++ [.checkAmendment a]) t := by
  have hcreating : ∀ core, s.creating = some core →
      CreationChecked env (past ++ [.checkAmendment a]) s.store core :=
    fun core hcore => (hs.creating core hcore).keep fun core' => by simp
  unfold InFlight.checkAmendment at h
  split at h
  · cases h
  · rename_i hlock
    -- the lock of the card was free, so every other amendment is of another card
    have hamending : ∀ b ∈ s.amending,
        AmendmentChecked env (past ++ [.checkAmendment a]) s.store b := by
      intro b hb
      refine (hs.amending b hb).keep fun heq => hlock ?_
      cases heq
      exact List.any_eq_true.mpr ⟨a, hb, decide_eq_true rfl⟩
    split at h
    · rename_i hcheck
      rw [pure_eq_ok] at h
      subst h
      refine ⟨fun b hb => ?_, hcreating⟩
      rcases List.mem_cons.mp hb with rfl | hb
      · exact ⟨past, [], rfl, List.not_mem_nil, fun _ => checkPasses_of_amendCheck hcheck⟩
      · exact hamending b hb
    · rw [pure_eq_ok] at h
      exact h ▸ ⟨hamending, hcreating⟩

theorem History.checkCreation {core : CardCore} (hs : History env past s)
    (h : s.checkCreation env core = .ok t) :
    History env (past ++ [.checkCreation core]) t := by
  have hamending : ∀ b ∈ s.amending,
      AmendmentChecked env (past ++ [.checkCreation core]) s.store b :=
    fun b hb => (hs.amending b hb).keep (by simp)
  unfold InFlight.checkCreation at h
  split at h
  · cases h
  · rename_i hlock
    split at h
    · rename_i hcheck
      rw [pure_eq_ok] at h
      subst h
      refine ⟨hamending, fun core' hcore' => ?_⟩
      cases hcore'
      exact ⟨past, [], rfl, fun _ => List.not_mem_nil,
        fun _ => checkPasses_of_governDependencies hcheck⟩
    · rw [pure_eq_ok] at h
      subst h
      refine ⟨hamending, fun core' hcore' => ?_⟩
      rw [hcore'] at hlock
      exact absurd rfl hlock

theorem History.appendAmendment {a : Amendment} {stamp : Stamp} (hs : History env past s)
    (h : s.appendAmendment env a stamp = .ok t) :
    History env (past ++ [.appendAmendment a stamp]) t := by
  unfold InFlight.appendAmendment at h
  split at h
  · split at h
    all_goals
      rw [pure_eq_ok] at h
      subst h
      exact ⟨fun b hb => (hs.amending b (List.mem_of_mem_erase hb)).write trivial,
        fun core hcore => (hs.creating core hcore).write trivial⟩
  · cases h

theorem History.publishCreation (hs : History env past s) (h : s.publishCreation = .ok t) :
    History env (past ++ [.publishCreation]) t := by
  unfold InFlight.publishCreation at h
  split at h
  · rw [pure_eq_ok] at h
    subst h
    refine ⟨fun b hb => (hs.amending b hb).write trivial, fun core hcore => ?_⟩
    cases hcore
  · cases h

/-- **One step** adds itself to the history. -/
theorem History.step (hs : History env past s) (h : s.step env tasks act = .ok t) :
    History env (past ++ [act]) t := by
  cases act with
  | checkAmendment a => exact hs.checkAmendment h
  | appendAmendment a stamp => exact hs.appendAmendment h
  | abandonAmendment a =>
    cases h
    exact ⟨fun b hb => (hs.amending b (List.mem_of_mem_erase hb)).keep (by simp),
      fun core hcore => (hs.creating core hcore).keep (by simp)⟩
  | checkCreation core => exact hs.checkCreation h
  | publishCreation => exact hs.publishCreation h
  | abandonCreation =>
    cases h
    refine ⟨fun b hb => (hs.amending b hb).keep (by simp), fun core hcore => ?_⟩
    cases hcore

/-- The history of a run that starts without calls in flight. -/
theorem History.run (hamending : s.amending = []) (hcreating : s.creating = none) :
    ∀ {past : List CallStep} {u : InFlight}, past.foldlM (InFlight.step env tasks) s = .ok u →
      History env past u := by
  intro past
  induction past using List.reverseRecOn with
  | nil =>
    intro u hu
    rw [List.foldlM_nil, pure_eq_ok] at hu
    subst hu
    refine ⟨fun a ha => ?_, fun core hcore => ?_⟩
    · rw [hamending] at ha
      exact (List.not_mem_nil ha).elim
    · rw [hcreating] at hcore
      cases hcore
  | append_singleton past act ih =>
    intro u hu
    obtain ⟨v, hv, hact⟩ := foldlM_append_eq_ok.mp hu
    obtain ⟨w, hw, hnil⟩ := foldlM_cons_eq_ok.mp hact
    rw [List.foldlM_nil, pure_eq_ok] at hnil
    exact hnil ▸ (ih hv).step hw

/-! ### The graph in a run -/

/-- **One step** of one call keeps the graph acyclic, if no other call has written since the check
of a call that writes. -/
theorem step_acyclic {rest : List CallStep} (h : s.step env tasks act = .ok t)
    (hpast : History env past s) (hrun : Undisturbed (past ++ act :: rest))
    (hs : Acyclic (s.store.Depends env)) : Acyclic (t.store.Depends env) := by
  cases act with
  | checkAmendment a =>
    change s.checkAmendment env tasks a = .ok t at h
    unfold checkAmendment at h
    split at h
    · cases h
    · split at h
      · rw [pure_eq_ok] at h; exact h ▸ hs
      · rw [pure_eq_ok] at h; exact h ▸ hs
  | appendAmendment a stamp =>
    by_cases hmem : a ∈ s.amending
    · obtain ⟨p, q, rfl, hlast, hcheck⟩ := hpast.amending a hmem
      refine appendAmendment_acyclic h (hcheck ?_) hs
      exact hrun.amendments p q rest a stamp (by simp) hlast
    · change s.appendAmendment env a stamp = .ok t at h
      unfold appendAmendment at h
      rw [if_neg hmem] at h
      cases h
  | abandonAmendment a => cases h; exact hs
  | checkCreation core =>
    change s.checkCreation env core = .ok t at h
    unfold checkCreation at h
    split at h
    · cases h
    · split at h
      · rw [pure_eq_ok] at h; exact h ▸ hs
      · rw [pure_eq_ok] at h; exact h ▸ hs
  | publishCreation =>
    refine publishCreation_acyclic h (fun core hcore => ?_) hs
    obtain ⟨p, q, rfl, hlast, hcheck⟩ := hpast.creating core hcore
    exact hcheck (hrun.creations p q rest core (by simp) hlast)
  | abandonCreation => cases h; exact hs

end InFlight

/-- **The graph stays acyclic** in every run of overlapping amendments and creations in which no
other call writes between the check of a call and its own write. -/
theorem acyclic_of_undisturbed {env : Env} {tasks : List String} {s t : InFlight}
    {run : List CallStep} (hamending : s.amending = []) (hcreating : s.creating = none)
    (hs : Acyclic (s.store.Depends env)) (h : run.foldlM (InFlight.step env tasks) s = .ok t)
    (hrun : Undisturbed run) : Acyclic (t.store.Depends env) := by
  refine foldlM_invariant_of_turns (I := fun u : InFlight => Acyclic (u.store.Depends env))
    (G := fun u act => ∃ past rest, run = past ++ act :: rest ∧ InFlight.History env past u)
    (fun u act v hu hG hstep => ?_) run s t hs (fun p act q u hsplit hu => ?_) h
  · obtain ⟨past, rest, hsplit, hpast⟩ := hG
    exact InFlight.step_acyclic hstep hpast (hsplit ▸ hrun) hu
  · exact ⟨p, q, hsplit, InFlight.History.run hamending hcreating hu⟩

/-! ### Two cards that depend on each other -/

/-- An environment in which nothing depends on hashes. -/
def hostEnv : Env :=
  { hostname := "host", writeEnabled := true, lineHash := fun _ => "h", repr := fun _ => "" }

/-- A store of two cards without dependencies. -/
def twoCardStore : Store :=
  let dir (id title : String) : CardDir :=
    { core := .present { id, title, createdAt := "" }, logs := [], nodup := List.nodup_nil }
  { cards := [("a", dir "a" "A"), ("b", dir "b" "B")] }

theorem twoCardStore_wellFormed : twoCardStore.WellFormed := by
  have hdir : ∀ id, twoCardStore.dir id =
      if "a" = id then { core := .present { id := "a", title := "A", createdAt := "" } }
      else if "b" = id then { core := .present { id := "b", title := "B", createdAt := "" } }
      else {} := by
    intro id
    unfold twoCardStore Store.dir
    rw [Assoc.get?_cons, Assoc.get?_cons, Assoc.get?_nil]
    split
    · rfl
    · split <;> rfl
  refine ⟨fun {id core} h => ?_, fun {id} h => ?_⟩
  · rw [hdir] at h
    split at h
    · rename_i ha; cases h; exact ha
    · split at h
      · rename_i hb; cases h; exact hb
      · cases h
  · rw [hdir] at h ⊢
    split
    · rfl
    · split <;> rfl

/-- Two cards without dependencies. -/
def twoCards : InFlight := { store := twoCardStore, wf := twoCardStore_wellFormed }

/-- Make `a` depend on `b`. -/
def amendA : Amendment := { cardId := "a", dependencyId := "b", reason := "r" }

/-- Make `b` depend on `a`. -/
def amendB : Amendment := { cardId := "b", dependencyId := "a", reason := "r" }

theorem twoCards_acyclic : Acyclic (twoCards.store.Depends hostEnv) := by
  refine acyclic_of_empty fun x y hxy => ?_
  obtain ⟨c, hc, hy⟩ := hxy
  by_cases ha : x = "a"
  · subst ha
    cases (show twoCards.store.fold hostEnv "a" = .ok (some _) from rfl).symm.trans hc
    cases hy
  · by_cases hb : x = "b"
    · subst hb
      cases (show twoCards.store.fold hostEnv "b" = .ok (some _) from rfl).symm.trans hc
      cases hy
    · -- there is no third card
      obtain ⟨core, hcore, -⟩ := Store.fold_core hc
      have hdir : twoCards.store.dir x = {} := by
        unfold twoCards twoCardStore Store.dir
        rw [Assoc.get?_cons, Assoc.get?_cons, if_neg (Ne.symm ha), if_neg (Ne.symm hb)]
        rfl
      rw [hdir] at hcore
      cases hcore

/-- A card that depends on both. -/
def coreC : CardCore := { id := "c", title := "C", createdAt := "", dependencies := ["a", "b"] }

/-- `amendB` checks behind the write of `amendA` and is refused, and `c` is created. -/
def inTurn : List CallStep :=
  [.checkAmendment amendA, .appendAmendment amendA { eventId := "e1", ts := "2026-01-01" },
    .checkAmendment amendB, .checkCreation coreC, .publishCreation]

theorem undisturbed_inTurn : Undisturbed inTurn := by
  refine ⟨fun p q r a stamp h hlast => ?_, fun p q r core h hlast => ?_⟩
  · rcases p with _ | ⟨_, _ | ⟨_, _ | ⟨_, _ | ⟨_, _ | ⟨_, p⟩⟩⟩⟩⟩ <;>
      rcases q with _ | ⟨_, _ | ⟨_, _ | ⟨_, _ | ⟨_, q⟩⟩⟩⟩ <;> simp_all [inTurn]
  · rcases p with _ | ⟨_, _ | ⟨_, _ | ⟨_, _ | ⟨_, _ | ⟨_, p⟩⟩⟩⟩⟩ <;>
      rcases q with _ | ⟨_, _ | ⟨_, _ | ⟨_, _ | ⟨_, q⟩⟩⟩⟩ <;> simp_all [inTurn]

/-- Two amendments and a creation that take their turns: no write comes between a check and its own
write, and the graph that they leave has three cards and no cycle. -/
theorem acyclic_of_undisturbed_inTurn : ∃ t : InFlight,
    inTurn.foldlM (InFlight.step hostEnv []) twoCards = .ok t ∧
      t.store.foldedEdges hostEnv = .ok [("a", ["b"]), ("b", []), ("c", ["a", "b"])] ∧
      Acyclic (t.store.Depends hostEnv) :=
  ⟨_, rfl, rfl, @acyclic_of_undisturbed hostEnv [] twoCards _ inTurn rfl rfl twoCards_acyclic rfl
    undisturbed_inTurn⟩

/-- The two amendments hold the locks of different cards: both find the graph without edges, and
both append. -/
theorem overlapping_amendments : ∃ t : InFlight,
    Acyclic (twoCards.store.Depends hostEnv) ∧
    [CallStep.checkAmendment amendA, .checkAmendment amendB,
      .appendAmendment amendA { eventId := "e1", ts := "2026-01-01" },
      .appendAmendment amendB { eventId := "e2", ts := "2026-01-02" }].foldlM
      (InFlight.step hostEnv []) twoCards = .ok t ∧
    t.amending = [] ∧ ¬Acyclic (t.store.Depends hostEnv) := by
  refine ⟨_, twoCards_acyclic, rfl, rfl, fun hacyclic => ?_⟩
  refine hacyclic "a" (.tail (.single (b := "b") ?_) ?_)
  · exact ⟨_, rfl, List.mem_cons_self⟩
  · exact ⟨_, rfl, List.mem_cons_self⟩

end SkCoord
