import SkCoord.Coordination.Equiv.Lives

/-!
# The lives that the agent files show

`AgentsAt env agents lives`: exactly the agent that holds a task lists it as claimed, and a task is
done exactly when some agent lists it as completed.  `AgentsAt.set` is the one rule for a write of an
agent file; `agentsAt_claim`, `agentsAt_release` and `agentsAt_complete` are what the three calls
write.  `legacyTaskView_shows` is what the projection makes of the files.
-/

namespace SkCoord

open Python

/-- The file of an agent in a run. -/
structure AgentAt (env : BoardEnv) (lives : Lives) (name : String) (a : AgentFile) : Prop where
  agent : a.agent = name
  valid : validateAgentName name = .ok name
  listed : ListsAgent env name
  nodup : a.claimedTasks.Nodup
  current : ∀ t, a.currentTask = some t → t ∈ a.claimedTasks
  claimed : ∀ t ∈ a.claimedTasks, ∃ revision, lives t = some (.held name revision)
  completed : ∀ t ∈ a.completedTasks, lives t = some .done

/-- The agent files of a run. -/
structure AgentsAt (env : BoardEnv) (agents : Assoc String AgentFile) (lives : Lives) : Prop where
  file : ∀ {name a}, Assoc.get? agents name = some a → AgentAt env lives name a
  holder : ∀ {t name revision}, lives t = some (.held name revision) →
    ∃ a, Assoc.get? agents name = some a ∧ t ∈ a.claimedTasks
  finisher : ∀ {t}, lives t = some .done →
    ∃ name a, Assoc.get? agents name = some a ∧ t ∈ a.completedTasks

variable {env : BoardEnv} {agents : Assoc String AgentFile} {lives : Lives} {name t : String}
  {a : AgentFile} {life : Life}

theorem agentsAt_empty : AgentsAt env [] fun _ => none :=
  ⟨fun h => (nomatch h), fun h => (nomatch h), fun h => (nomatch h)⟩

/-! ### Writes of one file -/

/-- Nobody but this agent has listed the task. -/
def OpenAt (lives : Lives) (t name : String) : Prop := ∀ life, lives t = some life → life.OpenTo name

/-- The task of which the life changes is in no other file. -/
theorem AgentAt.of_ne {other : String} {x : AgentFile} (h : AgentAt env lives other x)
    (hopen : OpenAt lives t name) (hne : other ≠ name) (life' : Option Life) :
    AgentAt env (Function.update lives t life') other x := by
  refine ⟨h.agent, h.valid, h.listed, h.nodup, h.current, ?_, ?_⟩
  · intro t' ht'
    obtain ⟨revision, hheld⟩ := h.claimed t' ht'
    have htt : t' ≠ t := by
      rintro rfl
      exact hne (hopen _ hheld)
    exact ⟨revision, by rw [Function.update_of_ne htt, hheld]⟩
  · intro t' ht'
    have hdone := h.completed t' ht'
    have htt : t' ≠ t := by
      rintro rfl
      exact hopen _ hdone
    rw [Function.update_of_ne htt, hdone]

/-- **A write of an agent file** with which one task that is open to the agent goes on to another
life. -/
theorem AgentsAt.set (h : AgentsAt env agents lives) (hopen : OpenAt lives t name)
    (ha : AgentAt env (Function.update lives t (some life)) name a)
    (hkeep : ∀ x, Assoc.get? agents name = some x →
      (∀ t' ∈ x.claimedTasks, t' ≠ t → t' ∈ a.claimedTasks) ∧
        ∀ t' ∈ x.completedTasks, t' ∈ a.completedTasks)
    (hheld : ∀ owner revision, life = .held owner revision → owner = name ∧ t ∈ a.claimedTasks)
    (hdone : life = .done → t ∈ a.completedTasks) :
    AgentsAt env (Assoc.set agents name a) (Function.update lives t (some life)) := by
  refine ⟨fun {other x} hx => ?_, fun {t' owner revision} ht' => ?_, fun {t'} ht' => ?_⟩
  · by_cases hne : other = name
    · subst hne
      rw [Assoc.get?_set_self] at hx
      cases hx
      exact ha
    · rw [Assoc.get?_set_ne _ _ hne] at hx
      exact (h.file hx).of_ne hopen hne _
  · by_cases htt : t' = t
    · subst htt
      rw [Function.update_self] at ht'
      obtain ⟨rfl, hmem⟩ := hheld owner revision (Option.some.inj ht')
      exact ⟨a, Assoc.get?_set_self _ _ _, hmem⟩
    · rw [Function.update_of_ne htt] at ht'
      obtain ⟨x, hx, hmem⟩ := h.holder ht'
      by_cases hne : owner = name
      · subst hne
        exact ⟨a, Assoc.get?_set_self _ _ _, (hkeep x hx).1 t' hmem htt⟩
      · exact ⟨x, by rw [Assoc.get?_set_ne _ _ hne, hx], hmem⟩
  · by_cases htt : t' = t
    · subst htt
      rw [Function.update_self] at ht'
      exact ⟨name, a, Assoc.get?_set_self _ _ _, hdone (Option.some.inj ht')⟩
    · rw [Function.update_of_ne htt] at ht'
      obtain ⟨other, x, hx, hmem⟩ := h.finisher ht'
      by_cases hne : other = name
      · subst hne
        exact ⟨other, a, Assoc.get?_set_self _ _ _, (hkeep x hx).2 t' hmem⟩
      · exact ⟨other, x, by rw [Assoc.get?_set_ne _ _ hne, hx], hmem⟩

/-- Files that read the same show the same. -/
theorem AgentsAt.congr {agents' : Assoc String AgentFile} (h : AgentsAt env agents lives)
    (heq : ∀ name, Assoc.get? agents' name = Assoc.get? agents name) :
    AgentsAt env agents' lives := by
  refine ⟨fun hx => h.file ((heq _).symm.trans hx), fun ht => ?_, fun ht => ?_⟩
  · obtain ⟨a, ha, hmem⟩ := h.holder ht
    exact ⟨a, (heq _).trans ha, hmem⟩
  · obtain ⟨name, a, ha, hmem⟩ := h.finisher ht
    exact ⟨name, a, (heq _).trans ha, hmem⟩

/-- A new task that is free is in no file. -/
theorem AgentsAt.create (h : AgentsAt env agents lives) (hnone : lives t = none) :
    AgentsAt env agents (Function.update lives t (some .free)) := by
  have hother : ∀ {t' life'}, lives t' = some life' →
      Function.update lives t (some .free) t' = some life' := by
    intro t' life' ht'
    have htt : t' ≠ t := by
      rintro rfl
      rw [hnone] at ht'
      cases ht'
    rw [Function.update_of_ne htt, ht']
  have hback : ∀ {t' life'}, Function.update lives t (some .free) t' = some life' →
      life' ≠ .free → lives t' = some life' := by
    intro t' life' ht' hne
    by_cases htt : t' = t
    · subst htt
      rw [Function.update_self] at ht'
      exact (hne (Option.some.inj ht').symm).elim
    · rwa [Function.update_of_ne htt] at ht'
  refine ⟨fun hx => ?_, fun ht => h.holder (hback ht nofun), fun ht => h.finisher (hback ht nofun)⟩
  have hfile := h.file hx
  exact ⟨hfile.agent, hfile.valid, hfile.listed, hfile.nodup, hfile.current,
    fun t' ht' => (hfile.claimed t' ht').imp fun _ hr => hother hr,
    fun t' ht' => hother (hfile.completed t' ht')⟩

/-! ### The file that a call reads -/

/-- The file of an agent, or a new one: what the three calls start from. -/
theorem AgentsAt.loadAgent {b : Board} (h : AgentsAt env b.agents lives)
    (hvalid : validateAgentName name = .ok name) :
    b.loadAgent name = .ok (Assoc.get? b.agents name) := by
  unfold Board.loadAgent
  refine bind_eq_ok.mpr ⟨name, hvalid, ?_⟩
  cases hget : Assoc.get? b.agents name with
  | none => rfl
  | some a =>
    dsimp only
    rw [if_pos (h.file hget).agent]
    rfl

/-- The file that a call starts from. -/
theorem AgentsAt.agentAt (h : AgentsAt env agents lives) (hvalid : validateAgentName name = .ok name)
    (hlisted : ListsAgent env name) :
    AgentAt env lives name ((Assoc.get? agents name).getD (.new name)) := by
  cases hget : Assoc.get? agents name with
  | none => exact ⟨rfl, hvalid, hlisted, List.nodup_nil, nofun, nofun, nofun⟩
  | some a => exact h.file hget

/-- A name is canonical as it is. -/
theorem validateAgentName_eq {canonical : String} (h : validateAgentName name = .ok canonical) :
    canonical = name := by
  unfold validateAgentName at h
  dsimp only at h
  split at h <;> cases h
  rfl

/-- The name of an agent is not empty. -/
theorem ne_empty_of_validateAgentName (h : validateAgentName name = .ok name) : name ≠ "" := by
  rintro rfl
  cases h

/-- An agent file with a claim: the claim of the task that it bumps stays. -/
theorem agentsAt_claim (h : AgentsAt env agents lives) (hvalid : validateAgentName name = .ok name)
    (hlisted : ListsAgent env name) (hopen : OpenAt lives t name) (drop : Bool)
    (hdrop : (((Assoc.get? agents name).getD (.new name)).bumped t).isSome = true → drop = false)
    (revision lastSeen : String) :
    AgentsAt env (Assoc.set agents name
        { ((Assoc.get? agents name).getD (.new name)).claim t drop with lastSeen })
      (Function.update lives t (some (.held name revision))) := by
  have hat := h.agentAt hvalid hlisted
  have hget : ∀ x, Assoc.get? agents name = some x →
      (Assoc.get? agents name).getD (.new name) = x := fun x hx => by rw [hx]; rfl
  generalize (Assoc.get? agents name).getD (.new name) = a at hat hdrop hget
  -- nothing is dropped, so the claims grow by the task at most
  have hclaimed : (a.claim t drop).claimedTasks =
      if t ∈ a.claimedTasks then a.claimedTasks else a.claimedTasks ++ [t] := by
    unfold AgentFile.claim
    dsimp only
    cases hb : a.bumped t with
    | none => rfl
    | some bumped =>
      rw [hdrop (by rw [hb]; rfl)]
      rfl
  have hmem : ∀ t', t' ∈ (a.claim t drop).claimedTasks ↔ t' = t ∨ t' ∈ a.claimedTasks := by
    intro t'
    rw [hclaimed]
    split
    · rename_i ht
      exact ⟨Or.inr, fun h => h.elim (fun h => h ▸ ht) id⟩
    · rw [List.mem_append, List.mem_singleton, or_comm]
  refine h.set hopen ⟨hat.agent, hvalid, hlisted, ?_, ?_, ?_, ?_⟩ ?_ ?_ nofun
  · change (a.claim t drop).claimedTasks.Nodup
    rw [hclaimed]
    split
    · exact hat.nodup
    · rename_i ht
      exact List.nodup_append.mpr ⟨hat.nodup, List.nodup_singleton t, fun x hx y hy => by
        rintro rfl
        exact ht (List.mem_singleton.mp hy ▸ hx)⟩
  · intro t' ht'
    cases ht'
    exact (hmem t).mpr (.inl rfl)
  · intro t' ht'
    by_cases htt : t' = t
    · exact ⟨revision, by rw [htt, Function.update_self]⟩
    · obtain ⟨r, hr⟩ := hat.claimed t' (((hmem t').mp ht').resolve_left htt)
      exact ⟨r, by rw [Function.update_of_ne htt, hr]⟩
  · intro t' ht'
    have hdone := hat.completed t' ht'
    have htt : t' ≠ t := by
      rintro rfl
      exact hopen _ hdone
    rw [Function.update_of_ne htt, hdone]
  · intro x hx
    rw [← hget x hx]
    exact ⟨fun t' ht' _ => (hmem t').mpr (.inr ht'), fun t' ht' => ht'⟩
  · intro owner r heq
    cases heq
    exact ⟨rfl, (hmem t).mpr (.inl rfl)⟩

/-- An agent file without the claim. -/
theorem agentsAt_release (h : AgentsAt env agents lives) {revision : String}
    (hlife : lives t = some (.held name revision)) (ha : Assoc.get? agents name = some a)
    (lastSeen : String) :
    AgentsAt env (Assoc.set agents name { a.release t with lastSeen })
      (Function.update lives t (some .free)) := by
  have hat := h.file ha
  have hopen : OpenAt lives t name := by
    intro life hl
    rw [hlife] at hl
    cases hl
    rfl
  have hmem : ∀ t', t' ∈ (a.release t).claimedTasks ↔ t' ∈ a.claimedTasks ∧ t' ≠ t := by
    intro t'
    unfold AgentFile.release
    simp
  refine h.set hopen ⟨hat.agent, hat.valid, hat.listed, hat.nodup.filter _, ?_, ?_, ?_⟩ ?_ nofun
    nofun
  · intro t' ht'
    obtain ⟨hcur, hne⟩ := Option.filter_eq_some_iff.mp ht'
    exact (hmem t').mpr ⟨hat.current t' hcur, of_decide_eq_true hne⟩
  · intro t' ht'
    obtain ⟨hclaimed, htt⟩ := (hmem t').mp ht'
    obtain ⟨r, hr⟩ := hat.claimed t' hclaimed
    exact ⟨r, by rw [Function.update_of_ne htt, hr]⟩
  · intro t' ht'
    have hdone := hat.completed t' ht'
    have htt : t' ≠ t := by
      rintro rfl
      rw [hlife] at hdone
      cases hdone
    rw [Function.update_of_ne htt, hdone]
  · intro x hx
    rw [ha] at hx
    cases hx
    exact ⟨fun t' ht' htt => (hmem t').mpr ⟨ht', htt⟩, fun t' ht' => ht'⟩

/-- An agent file with the task completed. -/
theorem agentsAt_complete (h : AgentsAt env agents lives)
    (hvalid : validateAgentName name = .ok name) (hlisted : ListsAgent env name)
    (hopen : OpenAt lives t name) (lastSeen : String) :
    AgentsAt env (Assoc.set agents name
        { ((Assoc.get? agents name).getD (.new name)).complete t with lastSeen })
      (Function.update lives t (some .done)) := by
  have hat := h.agentAt hvalid hlisted
  have hget : ∀ x, Assoc.get? agents name = some x →
      (Assoc.get? agents name).getD (.new name) = x := fun x hx => by rw [hx]; rfl
  generalize (Assoc.get? agents name).getD (.new name) = a at hat hget
  -- the task leaves the claims and joins the completed ones
  have hclaimed : ∀ t', t' ∈ (a.complete t).claimedTasks ↔ t' ≠ t ∧ t' ∈ a.claimedTasks :=
    fun t' => hat.nodup.mem_erase_iff
  have hcompleted : ∀ t', t' ∈ (a.complete t).completedTasks ↔ t' = t ∨ t' ∈ a.completedTasks := by
    intro t'
    unfold AgentFile.complete
    dsimp only
    split
    · rename_i ht
      exact ⟨Or.inr, fun h => h.elim (fun h => h ▸ ht) id⟩
    · rw [List.mem_append, List.mem_singleton, or_comm]
  refine h.set hopen ⟨hat.agent, hvalid, hlisted, hat.nodup.erase t, ?_, ?_, ?_⟩ ?_ nofun
    fun _ => (hcompleted t).mpr (.inl rfl)
  · intro t' ht'
    change (if a.currentTask = some t then (a.claimedTasks.erase t).head? else a.currentTask) =
      some t' at ht'
    split at ht'
    · exact List.mem_of_mem_head? ht'
    · rename_i hne
      refine (hclaimed t').mpr ⟨?_, hat.current t' ht'⟩
      rintro rfl
      exact hne ht'
  · intro t' ht'
    obtain ⟨htt, hmem⟩ := (hclaimed t').mp ht'
    obtain ⟨r, hr⟩ := hat.claimed t' hmem
    exact ⟨r, by rw [Function.update_of_ne htt, hr]⟩
  · intro t' ht'
    by_cases htt : t' = t
    · rw [htt, Function.update_self]
    · rw [Function.update_of_ne htt]
      exact hat.completed t' (((hcompleted t').mp ht').resolve_left htt)
  · intro x hx
    rw [← hget x hx]
    exact ⟨fun t' ht' htt => (hclaimed t').mpr ⟨htt, ht'⟩,
      fun t' ht' => (hcompleted t').mpr (.inr ht')⟩

end SkCoord
